import MusicLibrary.Store.Hierarchy

/-! Changes that a user makes to a store. Every one is recorded in the audit trail. -/

namespace MusicLibrary.Store

/-- The store with a playlist and its tracks, if the playlist may lie where it says. -/
def writePlaylist (store : Store) (playlist : Playlist) : Except Failure Store := do
  store.checkHierarchy playlist
  let written := { store with playlists := store.playlists.put (.ofPlaylist playlist) }
  return written.writeTrackIds playlist.id playlist.storedTrackIds

def saveTrack (store : Store) (track : Track) (actor : String) : Store :=
  let kind := if (store.track? track.id).isSome then AuditKind.trackUpdated else .trackCreated
  (store.writeTrack track).record actor "save_track" kind track.id.hex none none

def deleteTrack (store : Store) (id : PersistentId) (actor : String) : Except Failure Store := do
  let store ← store.removeTrack id
  return store.record actor "delete_track" .trackDeleted id.hex none none

/-- Saves a playlist. A row that is replaced has to be readable. -/
def savePlaylist (store : Store) (playlist : Playlist) (actor : String) : Except Failure Store := do
  let existing ← store.playlist? playlist.id
  let store ← store.writePlaylist playlist
  let kind := if existing.isSome then AuditKind.playlistUpdated else .playlistCreated
  return store.record actor "save_playlist" kind playlist.id.hex none none

def deletePlaylist (store : Store) (id : PersistentId) (actor : String) : Except Failure Store := do
  let store ← store.removePlaylist id
  return store.record actor "delete_playlist" .playlistDeleted id.hex none none

/-- Takes every occurrence of tracks out of a playlist; also tells how many there were. -/
def removeTracks (store : Store) (id : PersistentId) (tracks : List PersistentId)
    (actor : String) : Except Failure (Store × Nat) := do
  match ← store.playlist? id with
  | none => .error (.playlistNotFound id.hex)
  | some playlist =>
    let kept := playlist.trackIds.filter (! tracks.contains ·)
    let removed := playlist.trackIds.length - kept.length
    if removed = 0 then return (store, 0)
    return ((store.writeTrackIds id kept).record actor "delete_tracks_from_playlist"
      .playlistTracksChanged id.hex (toString playlist.trackIds.length) (toString kept.length),
      removed)

end MusicLibrary.Store
