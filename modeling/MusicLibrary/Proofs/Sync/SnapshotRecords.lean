import MusicLibrary.Proofs.Record.Playlist
import MusicLibrary.Proofs.Record.Track
import MusicLibrary.Proofs.Sync.SnapshotFrame

/-! What snapshots hold. Whatever calls have been made, the snapshot of an entry is a record of this
entry in compact JSON, and so it can be read back as the record. -/

namespace MusicLibrary.Store

/-- Every snapshot is a record of its entry. -/
def SnapshotsAreRecords (store : Store) : Prop :=
  ∀ kind owner key data, store.snapshot? kind owner key = some data →
    ∃ (record : LibraryRecord) (id : PersistentId), record.kind = kind ∧
      record.persistentId = some id ∧ key = id.hex ∧ data = record.toJson.compact

variable {store : Store}

theorem snapshotsAreRecords_commit (h : store.SnapshotsAreRecords) (t : Transaction) :
    (store.commit t).SnapshotsAreRecords := by
  intro kind owner key data seen
  by_cases own : t.baseline? = some ⟨kind, owner, key⟩
  · cases attempt : store.attempt t with
    | error failure =>
      rw [commit_of_error attempt] at seen
      exact h kind owner key data seen
    | ok next =>
      rw [commit_of_ok attempt] at seen
      cases t with
      | edit change => cases own
      | sync options record =>
        obtain ⟨id, name, same⟩ := Option.map_eq_some_iff.1 own
        obtain ⟨outcome, step⟩ := syncRecord_of_attempt attempt
        have described := Sync.describes_of_syncRecord step
        cases same
        have told (baseline : Sync.IsBaseline options next record) :
            data = record.toJson.compact := by
          obtain ⟨named, name', seen'⟩ := baseline
          cases name.symm.trans name'
          exact Option.some.inj (seen.symm.trans seen')
        cases outcome with
        | skipped reason =>
          obtain rfl : next = store := described
          exact h _ _ _ _ seen
        | unchanged => exact ⟨record, id, rfl, name, rfl, told described.1⟩
        | created => exact ⟨record, id, rfl, name, rfl, told described⟩
        | updated => exact ⟨record, id, rfl, name, rfl, told described⟩
      | pruneTrack options pruned =>
        obtain rfl := Except.ok.inj attempt
        cases own
        rw [Sync.snapshot?_pruneTrack, if_pos rfl] at seen
        cases seen
      | prunePlaylist options pruned =>
        obtain ⟨id?, prune⟩ := prunePlaylist_of_attempt attempt
        cases own
        rw [Sync.snapshot?_of_prunePlaylist prune, if_pos rfl] at seen
        cases seen
  · have same : (store.commit t).snapshot? kind owner key = store.snapshot? kind owner key :=
      snapshot?_commit_of_ne own
    exact h kind owner key data (same.symm.trans seen)

theorem snapshotsAreRecords_callAll (calls : List Call) :
    (Store.empty.callAll calls).SnapshotsAreRecords := by
  rw [← run_history]
  apply run_induction
  · intro t _ store h
    exact snapshotsAreRecords_commit h t
  · intro kind owner key data seen
    cases seen

/-- The snapshot of a playlist is read as a record of this playlist. -/
theorem recordOf_of_snapshot? (h : store.SnapshotsAreRecords) {owner : Option Int64}
    {id oldId : PersistentId} {previous : String} {old : PlaylistRecord}
    (seen : store.snapshot? .playlist owner id.hex = some previous)
    (base : Sync.recordOf PlaylistRecord.ofJson? (·.persistentId) previous = .ok (oldId, old)) :
    oldId = id := by
  obtain ⟨record, named, kind, name, key, rfl⟩ := h _ _ _ _ seen
  obtain rfl := PersistentId.hex_injective key
  cases record with
  | track record => cases kind
  | playlist record =>
    have read := record.recordOf_compact name
    cases read.symm.trans base
    rfl

end MusicLibrary.Store
