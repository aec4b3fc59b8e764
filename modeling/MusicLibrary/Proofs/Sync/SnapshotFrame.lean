import MusicLibrary.Proofs.Store.Entry
import MusicLibrary.Proofs.Sync.Baseline
import MusicLibrary.Proofs.Sync.PruneSteps

/-! The snapshots that a transaction leaves alone: all but the one baseline that it may move. -/

namespace MusicLibrary

namespace Store

variable {store next : Store}

/-- A user's changes leave all snapshots alone. -/
theorem snapshots_of_edit {change : Edit} (h : store.edit change = .ok next) :
    next.snapshots = store.snapshots := by
  cases editStep_of_edit h with
  | trackSaved track actor => rfl
  | trackDeleted there => rfl
  | playlistSaved old write =>
    obtain ⟨_, rfl⟩ := of_writePlaylist write
    rfl
  | playlistDeleted remove =>
    obtain ⟨_, _, rfl⟩ := of_removePlaylist remove
    rfl
  | tracksKept row same => rfl
  | tracksRemoved row fewer => rfl

theorem snapshot?_of_snapshots (h : next.snapshots = store.snapshots) (kind : EntityKind)
    (owner : Option Int64) (id : String) :
    next.snapshot? kind owner id = store.snapshot? kind owner id := by
  rw [snapshot?, h]
  rfl

theorem snapshot?_eraseSnapshot (store : Store) (kind : EntityKind) (owner : Option Int64)
    (id : String) (kind' : EntityKind) (owner' : Option Int64) (id' : String) :
    (store.eraseSnapshot kind owner id).snapshot? kind' owner' id' =
      if (⟨kind', owner', id'⟩ : SnapshotKey) = ⟨kind, owner, id⟩ then none
      else store.snapshot? kind' owner' id' := by
  unfold snapshot? eraseSnapshot
  rw [Table.find?_erase, apply_ite (Option.map Snapshot.data)]
  rfl

end Store

namespace Sync

variable {options : Options} {store next : Store} {outcome : Outcome} {key : SnapshotKey}

theorem snapshot?_of_syncTrack {record : TrackRecord}
    (h : syncTrack options store record = .ok (next, outcome))
    (other : ∀ id, record.persistentId = some id → key ≠ ⟨.track, options.owner, id.hex⟩) :
    next.snapshot? key.kind key.owner key.id = store.snapshot? key.kind key.owner key.id := by
  cases trackStep_of_syncTrack h with
  | nameless name => rfl
  | notImportable name refused => rfl
  | known name seen => rfl
  | gone name differs absent => rfl
  | created name fresh =>
    rw [createTrack, Store.snapshot?_record, Store.snapshot?_putSnapshot, if_neg (other _ name)]
    rfl
  | settled name differs row base nothing =>
    rw [Store.snapshot?_putSnapshot, if_neg (other _ name)]
  | merged name differs row base update something =>
    rw [Store.snapshot?_record, Store.snapshot?_putSnapshot, if_neg (other _ name)]
    rfl

theorem snapshot?_of_syncPlaylist {record : PlaylistRecord}
    (h : syncPlaylist options store record = .ok (next, outcome))
    (other : ∀ id, record.persistentId = some id → key ≠ ⟨.playlist, options.owner, id.hex⟩) :
    next.snapshot? key.kind key.owner key.id = store.snapshot? key.kind key.owner key.id := by
  cases playlistStep_of_syncPlaylist h with
  | nameless name => rfl
  | system name refused => rfl
  | known name seen => rfl
  | gone name differs absent => rfl
  | otherShape name differs row base refused => rfl
  | settled name differs row base update nothing =>
    rw [Store.snapshot?_putSnapshot, if_neg (other _ name)]
  | created name fresh write =>
    obtain ⟨_, rfl⟩ := Store.of_writePlaylist write
    rw [Store.snapshot?_record, Store.snapshot?_putSnapshot, if_neg (other _ name)]
    rfl
  | merged name differs row base update something write =>
    obtain ⟨_, rfl⟩ := Store.of_writePlaylist write
    rw [snapshot?_recordPlaylistChange, Store.snapshot?_putSnapshot, if_neg (other _ name)]
    rfl

/-- A track that is pruned takes its snapshot along, and no other one. -/
theorem snapshot?_pruneTrack (options : Options) (store : Store) (pruned : String)
    (kind : EntityKind) (owner : Option Int64) (id : String) :
    (pruneTrack options store pruned).1.snapshot? kind owner id =
      if (⟨kind, owner, id⟩ : SnapshotKey) = ⟨.track, options.owner, pruned⟩ then none
      else store.snapshot? kind owner id := by
  rw [← Store.snapshot?_eraseSnapshot]
  cases step : pruneTrack options store pruned with
  | mk next id? => cases trackPruning_of_pruneTrack step <;> rfl

theorem snapshot?_of_prunePlaylist {pruned : String} {id? : Option PersistentId}
    (h : prunePlaylist? options store pruned = some (next, id?)) (kind : EntityKind)
    (owner : Option Int64) (id : String) :
    next.snapshot? kind owner id =
      if (⟨kind, owner, id⟩ : SnapshotKey) = ⟨.playlist, options.owner, pruned⟩ then none
      else store.snapshot? kind owner id := by
  rw [← Store.snapshot?_eraseSnapshot]
  cases playlistPruning_of_prunePlaylist h with
  | illegible parsed => rfl
  | absent parsed absent => rfl
  | removed parsed remove =>
    obtain ⟨_, _, rfl⟩ := Store.of_removePlaylist remove
    rfl

end Sync

namespace Store

variable {store next : Store}

/-- A transaction moves no snapshot but its own. -/
theorem snapshot?_commit_of_ne {t : Transaction} {key : SnapshotKey}
    (other : t.baseline? ≠ some key) :
    (store.commit t).snapshot? key.kind key.owner key.id =
      store.snapshot? key.kind key.owner key.id := by
  cases attempt : store.attempt t with
  | error failure => rw [commit_of_error attempt]
  | ok next =>
    rw [commit_of_ok attempt]
    cases t with
    | edit change => exact snapshot?_of_snapshots (snapshots_of_edit attempt) _ _ _
    | sync options record =>
      obtain ⟨outcome, step⟩ := syncRecord_of_attempt attempt
      have apart (id : PersistentId) (name : record.persistentId = some id) :
          key ≠ ⟨record.kind, options.owner, id.hex⟩ := by
        intro same
        rw [Transaction.baseline?, name, same] at other
        exact other rfl
      cases record with
      | track record => exact Sync.snapshot?_of_syncTrack step apart
      | playlist record => exact Sync.snapshot?_of_syncPlaylist step apart
    | pruneTrack options pruned =>
      obtain rfl := Except.ok.inj attempt
      rw [Sync.snapshot?_pruneTrack, if_neg]
      intro same
      exact other (congrArg some same.symm)
    | prunePlaylist options pruned =>
      obtain ⟨id?, prune⟩ := prunePlaylist_of_attempt attempt
      rw [Sync.snapshot?_of_prunePlaylist prune, if_neg]
      intro same
      exact other (congrArg some same.symm)

end Store

end MusicLibrary
