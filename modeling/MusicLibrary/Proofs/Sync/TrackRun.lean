import MusicLibrary.Proofs.Record.Track
import MusicLibrary.Proofs.Sync.TrackBaseline
import MusicLibrary.Proofs.Track.Update

/-! The row of a track when a record is taken in. The record is merged into the row, column by
column, against exactly the record that was taken in before it: the snapshot tells that one in
full, and whatever else is done to the store leaves it alone. -/

namespace MusicLibrary

namespace Track

/-- A track as its row holds it. -/
def asStored (track : Track) : Track := { track with id := track.id.stored }

@[simp] theorem get_asStored (track : Track) (column : Column) :
    track.asStored.get column = track.get column := by
  cases column <;> rfl

/-- What the columns of a track are according to some records, one after the other. -/
def told (id : PersistentId) (records : List TrackRecord) (column : Column) :
    List (Option column.Value) :=
  records.map fun record => (ofRecord id record).get column

@[simp] theorem told_append (id : PersistentId) (a b : List TrackRecord) (column : Column) :
    told id (a ++ b) column = told id a column ++ told id b column := List.map_append

end Track

namespace Store

/-- The track that the snapshot of an owner tells. -/
def baseline? (store : Store) (owner : Option Int64) (id : PersistentId) : Option Track :=
  (store.snapshot? .track owner id.hex).bind fun data =>
    match Sync.recordOf TrackRecord.ofJson? (·.persistentId) data with
    | .ok (id, record) => some (.ofRecord id record)
    | .error _ => none

theorem baseline?_of_snapshot {store : Store} {owner : Option Int64} {id : PersistentId}
    {record : TrackRecord} (name : record.persistentId = some id)
    (seen : store.snapshot? .track owner id.hex = some record.toJson.compact) :
    store.baseline? owner id = some (.ofRecord id record) := by
  rw [baseline?, seen, Option.bind_some, TrackRecord.recordOf_compact name]
  rfl

theorem track?_writeTrack (store : Store) {track : Track} {id : PersistentId}
    (same : track.id.key = id.key) :
    (store.writeTrack track).track? id = some track.asStored := by
  have key : id.key = track.id.stored.key := by rw [PersistentId.key_stored, same]
  exact (Table.find?_put _ _ _).trans (if_pos key)

theorem key_of_track? {store : Store} {id : PersistentId} {track : Track}
    (h : store.track? id = some track) : track.id.key = id.key :=
  Table.key_of_find? h

/-- A record that differs from the baseline is merged into the row against it, if the counters of
the row can follow it. -/
theorem track?_of_mergeTrack {options : Sync.Options} {store : Store} {id oldId : PersistentId}
    {record old : TrackRecord} {previous : String} {stored : Track}
    (row : store.track? id = some stored)
    (base : Sync.recordOf TrackRecord.ofJson? (·.persistentId) previous = .ok (oldId, old))
    (fits : stored.CountersCanFollow (.ofRecord oldId old) (.ofRecord id record)) :
    ∃ next outcome row', Sync.mergeTrack options store id record previous stored =
        .ok (next, outcome) ∧ next.track? id = some row' ∧
      next.snapshot? .track options.owner id.hex = some record.toJson.compact ∧
      ∀ column, column ≠ .dateModified → stored.mergeColumn? (.ofRecord oldId old)
        (.ofRecord id record) column = some (row'.get column) := by
  obtain ⟨⟨track, changed⟩, update⟩ := Option.isSome_iff_exists.1
    ((@Track.isSome_update?_iff stored _ _ options.now).2 fits)
  by_cases nothing : changed = []
  · subst nothing
    have step : Sync.mergeTrack options store id record previous stored =
        .ok (store.putSnapshot .track options.owner id.hex record.toJson.compact,
          .unchanged) := by
      rw [Sync.mergeTrack, base]
      simp only [bind, Except.bind, update]
      rfl
    exact ⟨_, _, stored, step, row, snapshot?_putSnapshot_self ..,
      fun column _ => Track.mergeColumn?_of_update?_nil update column⟩
  · have step : Sync.mergeTrack options store id record previous stored =
        .ok (((store.writeTrack track).putSnapshot .track options.owner id.hex
          record.toJson.compact).record options.actor "sync_track" .trackUpdated id.hex none
          (some (String.intercalate "," (changed.map (·.label)))), .updated false false) := by
      rw [Sync.mergeTrack, base]
      simp only [bind, Except.bind, update, told, List.isEmpty_eq_false_iff.2 nothing]
      rfl
    have key : track.id.key = id.key := by
      rw [Track.id_of_update? update, key_of_track? row]
    refine ⟨_, _, track.asStored, step, ?_, ?_, fun column other => ?_⟩
    · exact track?_writeTrack store key
    · rw [snapshot?_record]
      exact snapshot?_putSnapshot_self ..
    · rw [Track.get_asStored]
      exact Track.mergeColumn?_of_update? update other

/-- What becomes of a row when a record is taken in. -/
theorem track?_commit {store : Store} {owner : Option Int64} {id : PersistentId} {t : Transaction}
    {record : TrackRecord} {stored old : Track} (taken : t.recordFor owner id = some record)
    (row : store.track? id = some stored) (base : store.baseline? owner id = some old)
    (fits : stored.CountersCanFollow old (.ofRecord id record)) :
    ∃ next, (store.commit t).track? id = some next ∧
      (store.commit t).baseline? owner id = some (.ofRecord id record) ∧
      ((∀ column, column ≠ .dateModified →
          stored.mergeColumn? old (.ofRecord id record) column = some (next.get column)) ∨
        (next = stored ∧ old = .ofRecord id record)) := by
  obtain ⟨options, rfl, rfl, name, importable⟩ := Transaction.recordFor_eq_some taken
  obtain ⟨previous, seen, told⟩ := Option.bind_eq_some_iff.1 base
  have step : Sync.syncTrack options store record =
      if previous = record.toJson.compact then .ok (store, .unchanged)
      else Sync.mergeTrack options store id record previous stored := by
    simp only [Sync.syncTrack, name, importable, seen, row]
    rfl
  by_cases same : previous = record.toJson.compact
  · rw [if_pos same] at step
    have kept : store.commit (.sync options (.track record)) = store :=
      commit_of_ok (attempt_of_syncRecord step)
    rw [same] at seen
    have known := baseline?_of_snapshot name seen
    rw [kept]
    refine ⟨stored, row, known, .inr ⟨rfl, ?_⟩⟩
    rw [known, Option.some.injEq] at base
    exact base.symm
  · cases read : Sync.recordOf TrackRecord.ofJson? (·.persistentId) previous with
    | error failure =>
      rw [read] at told
      cases told
    | ok pair =>
      obtain ⟨oldId, oldRecord⟩ := pair
      rw [read] at told
      cases told
      obtain ⟨next, outcome, row', merge, found, snapshot, columns⟩ :=
        @track?_of_mergeTrack options _ _ _ _ _ _ _ row read fits
      rw [if_neg same, merge] at step
      have moved : store.commit (.sync options (.track record)) = next :=
        commit_of_ok (attempt_of_syncRecord step)
      rw [moved]
      exact ⟨row', found, baseline?_of_snapshot name snapshot, .inl columns⟩

/-- Whatever leaves the row as it is leaves the baseline, too. -/
theorem baseline?_commit {store : Store} {t : Transaction} {owner : Option Int64}
    {id : PersistentId} {stored : Track} (foreign : t.recordFor owner id = none)
    (row : (store.commit t).track? id = some stored) :
    (store.commit t).baseline? owner id = store.baseline? owner id := by
  have stays : (store.commit t).track? id ≠ none := by
    rw [row]
    exact nofun
  rw [baseline?, snapshot?_commit foreign stays]
  rfl

end Store

end MusicLibrary
