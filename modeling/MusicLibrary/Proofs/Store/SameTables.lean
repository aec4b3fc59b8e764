import MusicLibrary.Store.Basic

/-! Stores that hold the same. The audit trail tells how a store has come about; apart from it, a
store is no more than its rows, its lists of tracks and its snapshots. -/

namespace MusicLibrary

/-- Lists of tracks are no more than their rows. -/
theorem Memberships.eq_of_rows_eq {a b : Memberships} (h : a.rows = b.rows) : a = b := by
  cases a
  cases b
  cases h
  rfl

namespace Store

/-- The audit trails aside, two stores are the same. -/
structure SameTables (a b : Store) : Prop where
  tracks : a.tracks = b.tracks
  playlists : a.playlists = b.playlists
  memberships : a.memberships = b.memberships
  snapshots : a.snapshots = b.snapshots

namespace SameTables

variable {a b c : Store}

theorem refl (store : Store) : SameTables store store := ⟨rfl, rfl, rfl, rfl⟩

theorem symm (h : SameTables a b) : SameTables b a :=
  ⟨h.tracks.symm, h.playlists.symm, h.memberships.symm, h.snapshots.symm⟩

theorem trans (h : SameTables a b) (h' : SameTables b c) : SameTables a c :=
  ⟨h.tracks.trans h'.tracks, h.playlists.trans h'.playlists,
    h.memberships.trans h'.memberships, h.snapshots.trans h'.snapshots⟩

/-- What a store holds leaves only the audit trail open. -/
theorem exists_audit (h : SameTables a b) : ∃ audit, b = { a with audit } := by
  cases a
  cases b
  obtain ⟨rfl, rfl, rfl, rfl⟩ := h
  exact ⟨_, rfl⟩

end SameTables

/-- Two stores have the same snapshots if they find the same data. -/
theorem snapshots_eq_of_snapshot?_eq {a b : Store}
    (h : ∀ kind owner key, a.snapshot? kind owner key = b.snapshot? kind owner key) :
    a.snapshots = b.snapshots := by
  apply Table.eq_of_find?_eq
  intro key
  have same := h key.kind key.owner key.id
  unfold snapshot? at same
  cases found : a.snapshots.find? key with
  | none =>
    cases found' : b.snapshots.find? key with
    | none => rfl
    | some other => simp [found, found'] at same
  | some snapshot =>
    cases found' : b.snapshots.find? key with
    | none => simp [found, found'] at same
    | some other =>
      have own : snapshot.key = key := Table.key_of_find? found
      have own' : other.key = key := Table.key_of_find? found'
      simp only [found, found', Option.map_some, Option.some.injEq] at same
      cases snapshot
      cases other
      simp_all

end Store

end MusicLibrary
