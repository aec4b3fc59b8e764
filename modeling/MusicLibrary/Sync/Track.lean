import MusicLibrary.Sync.Options
import MusicLibrary.Track.Import
import MusicLibrary.Track.Json
import MusicLibrary.Track.Update

/-! Synchronising a track. A record that was never seen makes a new row; one that has changed
since is merged into the row that is there. -/

namespace MusicLibrary.Sync

def createTrack (options : Options) (store : Store) (id : PersistentId) (record : TrackRecord) :
    Store × Outcome :=
  let written := (store.writeTrack (.ofRecord id record)).putSnapshot .track options.owner id.hex
    record.toJson.compact
  (written.record options.actor "sync_track" .trackCreated id.hex none none, .created)

def mergeTrack (options : Options) (store : Store) (id : PersistentId) (record : TrackRecord)
    (previous : String) (stored : Track) : Step := do
  let (oldId, old) ← recordOf TrackRecord.ofJson? (·.persistentId) previous
  let (track, changed) ← Store.told .overflow
    (stored.update? (.ofRecord oldId old) (.ofRecord id record) options.now)
  let data := record.toJson.compact
  if changed.isEmpty then return (store.putSnapshot .track options.owner id.hex data, .unchanged)
  let written := (store.writeTrack track).putSnapshot .track options.owner id.hex data
  return (written.record options.actor "sync_track" .trackUpdated id.hex none
    (some (String.intercalate "," (changed.map (·.label)))), .updated false false)

/-- Synchronises a track. One that was deleted here since it was last seen stays deleted. -/
def syncTrack (options : Options) (store : Store) (record : TrackRecord) : Step :=
  match record.persistentId with
  | none => .ok (store, .skipped .missingPersistentId)
  | some id =>
    if !record.isImportable then .ok (store, .skipped .notImportable)
    else match store.snapshot? .track options.owner id.hex with
      | none => .ok (createTrack options store id record)
      | some previous =>
        if previous = record.toJson.compact then .ok (store, .unchanged)
        else match store.track? id with
          | none => .ok (store, .skipped .deletedLocally)
          | some stored => mergeTrack options store id record previous stored

end MusicLibrary.Sync
