import MusicLibrary.Sync.Playlist
import MusicLibrary.Sync.Prune
import MusicLibrary.Sync.Track

/-! Synchronising a whole stream. Every record is a change of its own. A stream that breaks off
prunes nothing, and a failure leaves what was done before it. -/

namespace MusicLibrary.Sync

structure Progress where
  store : Store
  stats : Stats := {}
  events : List ChangeEvent := []
  /-- The ids of the track records so far. -/
  seenTracks : List String := []
  /-- The ids of the playlist records so far. -/
  seenPlaylists : List String := []

namespace Progress

def see (id : Option PersistentId) (seen : List String) : List String :=
  match id with
  | some id => id.hex :: seen
  | none => seen

def takeTrack (options : Options) (progress : Progress) (record : TrackRecord) :
    Except Failure Progress := do
  let (store, outcome) ← syncTrack options progress.store record
  return { progress with
    store
    stats := { progress.stats with tracks := progress.stats.tracks.record outcome }
    events := progress.events ++ outcome.events .track record.persistentId
    seenTracks := see record.persistentId progress.seenTracks }

/-- Synchronises a playlist of a stream; one that has no place among the folders is skipped. -/
def placePlaylist (options : Options) (store : Store) (record : PlaylistRecord) : Step :=
  match syncPlaylist options store record with
  | .error failure =>
    if failure.isMisplaced then .ok (store, .skipped .misplaced) else .error failure
  | step => step

def takePlaylist (options : Options) (progress : Progress) (record : PlaylistRecord) :
    Except Failure Progress := do
  let (store, outcome) ← placePlaylist options progress.store record
  return { progress with
    store
    stats := { progress.stats with playlists := progress.stats.playlists.record outcome }
    events := progress.events ++ outcome.events .playlist record.persistentId
    seenPlaylists := see record.persistentId progress.seenPlaylists }

def take (options : Options) (progress : Progress) : LibraryRecord → Except Failure Progress
  | .track record => progress.takeTrack options record
  | .playlist record => progress.takePlaylist options record

def abort (progress : Progress) : Progress :=
  { progress with stats := { progress.stats with aborted := true } }

def prune (options : Options) (progress : Progress) : Progress :=
  let deletions := fun (kind : EntityKind) (ids : List PersistentId) =>
    ids.map fun id => ChangeEvent.mk kind id .deleted
  let (store, tracks) := pruneTracks options progress.store
    (staleIds options progress.store .track progress.seenTracks)
  let (store, playlists) := prunePlaylists options store
    (staleIds options store .playlist progress.seenPlaylists)
  let stats := progress.stats
  { progress with
    store
    stats := { stats with
      tracks := { stats.tracks with deleted := tracks.length }
      playlists := { stats.playlists with deleted := playlists.length } }
    events := progress.events ++ deletions .track tracks ++ deletions .playlist playlists }

end Progress

/-- What a stream leaves: how far it came, and the failure that stopped it, if one did. -/
structure Result where
  progress : Progress
  failure : Option Failure := none

def resume (options : Options) (progress : Progress) : List (Except ε LibraryRecord) → Result
  | [] => ⟨progress.prune options, none⟩
  | .error _ :: _ => ⟨progress.abort, none⟩
  | .ok record :: rest =>
    match progress.take options record with
    | .ok progress => resume options progress rest
    | .error failure => ⟨progress, some failure⟩

def stream (options : Options) (store : Store) (items : List (Except ε LibraryRecord)) : Result :=
  resume options ⟨store, {}, [], [], []⟩ items

end MusicLibrary.Sync
