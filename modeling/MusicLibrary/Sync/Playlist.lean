import MusicLibrary.Playlist.Import
import MusicLibrary.Playlist.Update
import MusicLibrary.Store.Edit
import MusicLibrary.Sync.Options

/-! Synchronising a playlist. A record that was never seen makes a new row; one that has changed
since is merged into the row that is there, unless it is of another shape. -/

namespace MusicLibrary.Sync

def createPlaylist (options : Options) (store : Store) (id : PersistentId)
    (record : PlaylistRecord) : Step := do
  let written ← store.writePlaylist (.ofRecord id record)
  let written := written.putSnapshot .playlist options.owner id.hex record.toJson.compact
  return (written.record options.actor "sync_playlist" .playlistCreated id.hex none none, .created)

/-- Records a change of a playlist; a move comes first, from its old folder to its new one. -/
def recordPlaylistChange (options : Options) (store : Store) (id : PersistentId)
    (old new : Option PersistentId) (moved : Bool) : Store :=
  let text := Option.map PersistentId.hex
  let store := if moved then
      store.record options.actor "sync_playlist" .playlistMoved id.hex (text old) (text new)
    else store
  store.record options.actor "sync_playlist" .playlistUpdated id.hex none none

def mergePlaylist (options : Options) (store : Store) (id : PersistentId)
    (record : PlaylistRecord) (previous : String) (stored : Playlist) : Step := do
  let (oldId, old) ← recordOf PlaylistRecord.ofJson? (·.persistentId) previous
  let data := record.toJson.compact
  match stored.update? (.ofRecord oldId old) (.ofRecord id record) options.now with
  | none => return (store, .skipped .shapeChanged)
  | some (playlist, change) =>
    if !change.changed then
      return (store.putSnapshot .playlist options.owner id.hex data, .unchanged)
    let written ← store.writePlaylist playlist
    let written := written.putSnapshot .playlist options.owner id.hex data
    return (recordPlaylistChange options written id stored.parentId playlist.parentId
      change.parentChanged, .updated change.parentChanged change.conflict)

/-- Synchronises a playlist. One that was deleted here since it was last seen stays deleted. -/
def syncPlaylist (options : Options) (store : Store) (record : PlaylistRecord) : Step :=
  match record.persistentId with
  | none => .ok (store, .skipped .missingPersistentId)
  | some id =>
    if options.skipsSystemPlaylists && record.isSystem then
      .ok (store, .skipped .systemPlaylist)
    else match store.snapshot? .playlist options.owner id.hex with
      | none => createPlaylist options store id record
      | some previous =>
        if previous = record.toJson.compact then .ok (store, .unchanged)
        else do
          match ← store.playlist? id with
          | none => return (store, .skipped .deletedLocally)
          | some stored => mergePlaylist options store id record previous stored

end MusicLibrary.Sync
