import MusicLibrary.Proofs.Sync.SnapshotFrame

/-! The baseline of a track. As long as the row of a track is there, only a record of the track that
its owner takes in moves the baseline; whatever else is done to the store leaves it alone. -/

namespace MusicLibrary

/-- The record that a transaction brings of a track in the library of an owner, if it can be taken
in. -/
def Transaction.recordFor (owner : Option Int64) (id : PersistentId) :
    Transaction → Option TrackRecord
  | .sync options (.track record) =>
    if options.owner = owner ∧ record.persistentId = some id ∧ record.isImportable = true then
      some record
    else none
  | _ => none

theorem Transaction.recordFor_eq_some {owner : Option Int64} {id : PersistentId} {t : Transaction}
    {record : TrackRecord} (h : t.recordFor owner id = some record) :
    ∃ options, t = .sync options (.track record) ∧ options.owner = owner ∧
      record.persistentId = some id ∧ record.isImportable = true := by
  unfold recordFor at h
  split at h
  · rename_i options other
    split at h
    · rename_i facts
      cases h
      exact ⟨options, rfl, facts⟩
    · cases h
  · cases h

namespace Sync

variable {options : Options} {store next : Store} {outcome : Outcome}

/-- A record that cannot be taken in leaves the store as it was. -/
theorem syncTrack_of_not_importable {record : TrackRecord} (refused : record.isImportable = false)
    (h : syncTrack options store record = .ok (next, outcome)) : next = store := by
  unfold syncTrack at h
  split at h
  · cases h
    rfl
  · rw [refused] at h
    cases h
    rfl

/-- A track that is pruned is gone. -/
theorem track?_pruneTrack_self (options : Options) (store : Store) (id : PersistentId) :
    (pruneTrack options store id.hex).1.track? id = none := by
  have gone : ((store.eraseSnapshot .track options.owner id.hex).eraseTrack id).track? id =
      none := (Table.find?_erase _ _ _).trans (if_pos rfl)
  simp only [pruneTrack, PersistentId.parse?_hex]
  split <;> exact gone

end Sync

namespace Store

/-- Where the row of a track stays, only the records of the track that an owner takes in move the
owner's snapshot of it. -/
theorem snapshot?_commit {store : Store} {t : Transaction} {owner : Option Int64}
    {id : PersistentId} (foreign : t.recordFor owner id = none)
    (stays : (store.commit t).track? id ≠ none) :
    (store.commit t).snapshot? .track owner id.hex = store.snapshot? .track owner id.hex := by
  by_cases own : t.baseline? = some ⟨.track, owner, id.hex⟩
  · cases t with
    | edit change => cases own
    | prunePlaylist options key => cases own
    | pruneTrack options key =>
      cases own
      exact absurd (Sync.track?_pruneTrack_self options store id) stays
    | sync options record =>
      obtain ⟨named, name, same⟩ := Option.map_eq_some_iff.1 own
      rw [SnapshotKey.mk.injEq] at same
      obtain ⟨kind, sameOwner, hex⟩ := same
      obtain rfl := PersistentId.hex_injective hex
      cases record with
      | playlist record => cases kind
      | track record =>
        -- The record is one of the track, so it can only be one that is not importable.
        have refused : record.isImportable = false := by
          cases importable : record.isImportable with
          | false => rfl
          | true =>
            rw [Transaction.recordFor, if_pos ⟨sameOwner, name, importable⟩] at foreign
            cases foreign
        cases attempt : store.attempt (.sync options (.track record)) with
        | error failure => rw [commit_of_error attempt]
        | ok next =>
          obtain ⟨outcome, step⟩ := syncRecord_of_attempt attempt
          rw [commit_of_ok attempt, Sync.syncTrack_of_not_importable refused step]
  · exact snapshot?_commit_of_ne own

end Store

end MusicLibrary
