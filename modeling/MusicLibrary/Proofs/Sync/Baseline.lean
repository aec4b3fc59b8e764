import MusicLibrary.Proofs.Store.History
import MusicLibrary.Proofs.Sync.Steps

/-! The baseline of an owner is the record that was last taken into its entry. It advances exactly
with the row: a record that is skipped or fails leaves everything as it was, and any other one is
the baseline afterwards. -/

namespace MusicLibrary

namespace Store

theorem snapshot?_putSnapshot (store : Store) (kind : EntityKind) (owner : Option Int64)
    (id data : String) (kind' : EntityKind) (owner' : Option Int64) (id' : String) :
    (store.putSnapshot kind owner id data).snapshot? kind' owner' id' =
      if (⟨kind', owner', id'⟩ : SnapshotKey) = ⟨kind, owner, id⟩ then some data
      else store.snapshot? kind' owner' id' := by
  unfold snapshot? putSnapshot
  rw [Table.find?_put, apply_ite (Option.map Snapshot.data)]
  rfl

@[simp] theorem snapshot?_putSnapshot_self (store : Store) (kind : EntityKind)
    (owner : Option Int64) (id data : String) :
    (store.putSnapshot kind owner id data).snapshot? kind owner id = some data := by
  rw [snapshot?_putSnapshot, if_pos rfl]

@[simp] theorem snapshot?_record (store : Store) (actor operation : String) (change : AuditKind)
    (entityId : String) (old new : Option String) (kind : EntityKind) (owner : Option Int64)
    (id : String) :
    (store.record actor operation change entityId old new).snapshot? kind owner id =
      store.snapshot? kind owner id := rfl

end Store

namespace Sync

variable {options : Options} {store next : Store} {outcome : Outcome}

@[simp] theorem snapshot?_recordPlaylistChange (options : Options) (store : Store)
    (playlist : PersistentId) (old new : Option PersistentId) (moved : Bool) (kind : EntityKind)
    (owner : Option Int64) (id : String) :
    (recordPlaylistChange options store playlist old new moved).snapshot? kind owner id =
      store.snapshot? kind owner id := by
  cases moved <;> rfl

/-- The owner's snapshot of the record's entry is the record itself. -/
def IsBaseline (options : Options) (store : Store) (record : LibraryRecord) : Prop :=
  ∃ id, record.persistentId = some id ∧
    store.snapshot? record.kind options.owner id.hex = some record.toJson.compact

/-- The snapshots aside, two stores are the same. -/
def SameEntries (a b : Store) : Prop :=
  a.tracks = b.tracks ∧ a.playlists = b.playlists ∧ a.memberships = b.memberships ∧
    a.audit = b.audit

theorem sameEntries_putSnapshot (store : Store) (kind : EntityKind) (owner : Option Int64)
    (id data : String) : SameEntries (store.putSnapshot kind owner id data) store :=
  ⟨rfl, rfl, rfl, rfl⟩

/-- What an outcome says about the store behind a step. -/
def Outcome.Describes (outcome : Outcome) (options : Options) (store next : Store)
    (record : LibraryRecord) : Prop :=
  match outcome with
  | .skipped _ => next = store
  | .unchanged => IsBaseline options next record ∧ SameEntries next store
  | .created | .updated .. => IsBaseline options next record

theorem TrackStep.describes {record : TrackRecord}
    (h : TrackStep options store record next outcome) :
    outcome.Describes options store next (.track record) := by
  cases h with
  | nameless name => rfl
  | notImportable name refused => rfl
  | gone name differs absent => rfl
  | known name seen => exact ⟨⟨_, name, seen⟩, rfl, rfl, rfl, rfl⟩
  | settled name differs row base nothing =>
    refine ⟨⟨_, name, ?_⟩, sameEntries_putSnapshot ..⟩
    exact Store.snapshot?_putSnapshot_self ..
  | created name fresh =>
    refine ⟨_, name, ?_⟩
    rw [createTrack, Store.snapshot?_record]
    exact Store.snapshot?_putSnapshot_self ..
  | merged name differs row base update something =>
    refine ⟨_, name, ?_⟩
    rw [Store.snapshot?_record]
    exact Store.snapshot?_putSnapshot_self ..

theorem PlaylistStep.describes {record : PlaylistRecord}
    (h : PlaylistStep options store record next outcome) :
    outcome.Describes options store next (.playlist record) := by
  cases h with
  | nameless name => rfl
  | system name refused => rfl
  | gone name differs absent => rfl
  | otherShape name differs row base refused => rfl
  | known name seen => exact ⟨⟨_, name, seen⟩, rfl, rfl, rfl, rfl⟩
  | settled name differs row base update nothing =>
    refine ⟨⟨_, name, ?_⟩, sameEntries_putSnapshot ..⟩
    exact Store.snapshot?_putSnapshot_self ..
  | created name fresh write =>
    refine ⟨_, name, ?_⟩
    rw [Store.snapshot?_record]
    exact Store.snapshot?_putSnapshot_self ..
  | merged name differs row base update something write =>
    refine ⟨_, name, ?_⟩
    rw [snapshot?_recordPlaylistChange]
    exact Store.snapshot?_putSnapshot_self ..

theorem describes_of_syncRecord {record : LibraryRecord}
    (h : syncRecord options store record = .ok (next, outcome)) :
    outcome.Describes options store next record := by
  cases record with
  | track record => exact (trackStep_of_syncTrack h).describes
  | playlist record => exact (playlistStep_of_syncPlaylist h).describes

/-- The baseline advances with the row. Of a record that is skipped, and of one that fails, nothing
is left behind; one that is created, updated or unchanged is the baseline of its owner, and only
the baseline differs where nothing changed. -/
theorem baseline_advances_with_row (options : Options) (store : Store) (record : LibraryRecord) :
    match syncRecord options store record with
    | .error _ => store.commit (.sync options record) = store
    | .ok (next, outcome) =>
      store.commit (.sync options record) = next ∧
        (∀ reason, outcome = .skipped reason → next = store) ∧
        ((∀ reason, outcome ≠ .skipped reason) → IsBaseline options next record) ∧
        (outcome = .unchanged → SameEntries next store) := by
  cases step : syncRecord options store record with
  | error failure => exact Store.commit_of_error (Store.attempt_of_syncRecord_error step)
  | ok result =>
    obtain ⟨next, outcome⟩ := result
    have described := describes_of_syncRecord step
    refine ⟨?_, ?_, ?_, ?_⟩
    · exact Store.commit_of_ok (Store.attempt_of_syncRecord step)
    · rintro reason rfl
      exact described
    · intro applied
      cases outcome with
      | skipped reason => exact absurd rfl (applied reason)
      | unchanged => exact described.1
      | created => exact described
      | updated parentChanged conflict => exact described
    · rintro rfl
      exact described.2

end Sync

end MusicLibrary
