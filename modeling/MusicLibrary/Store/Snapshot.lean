import MusicLibrary.Record.Basic
import MusicLibrary.Store.Table

/-! Snapshots: the record that was last seen of an entry, for each owner of a library. They tell
whether a record has changed since. -/

namespace MusicLibrary

/-- What a snapshot is of, and whose it is. -/
structure SnapshotKey where
  kind : EntityKind
  owner : Option Int64
  id : String
  deriving DecidableEq, Inhabited

namespace SnapshotKey

instance : Ord SnapshotKey where
  compare := compareLex (compareOn fun k : SnapshotKey => k.kind.label)
    (compareLex (compareOn (·.owner)) (compareOn (·.id)))

instance : Std.TransOrd SnapshotKey :=
  inferInstanceAs (Std.TransCmp (compareLex (compareOn fun k : SnapshotKey => k.kind.label)
    (compareLex (compareOn (·.owner)) (compareOn (·.id)))))

instance : Std.LawfulEqOrd SnapshotKey where
  eq_of_compare {a b} h := by
    obtain ⟨kind, owner, id⟩ := a
    obtain ⟨kind', owner', id'⟩ := b
    simp only [compare, compareLex_eq_eq] at h
    obtain ⟨kinds, owners, ids⟩ := h
    have same : kind = kind' := by
      have labels : kind.label = kind'.label := Std.LawfulEqOrd.eq_of_compare kinds
      cases kind <;> cases kind' <;> simp_all [EntityKind.label]
    have owners : owner = owner' := Std.LawfulEqOrd.eq_of_compare owners
    have ids : id = id' := Std.LawfulEqOrd.eq_of_compare ids
    rw [same, owners, ids]

end SnapshotKey

structure Snapshot where
  key : SnapshotKey
  /-- The record in compact JSON. -/
  data : String
  deriving DecidableEq, Inhabited

instance : Keyed Snapshot SnapshotKey := ⟨Snapshot.key⟩

def Table.knownIds (snapshots : Table Snapshot) (kind : EntityKind) (owner : Option Int64) :
    List String :=
  (snapshots.rows.filter fun s => s.key.kind = kind ∧ s.key.owner = owner).map (·.key.id)

end MusicLibrary
