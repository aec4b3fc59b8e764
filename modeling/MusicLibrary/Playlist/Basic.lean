import MusicLibrary.PlaylistKind
import MusicLibrary.Smart.Json

/-! Playlists: folders, lists of tracks in an order of their own, and smart playlists, whose tracks
follow from rules. -/

namespace MusicLibrary

structure Playlist where
  id : PersistentId
  /-- The folder that the playlist lies in; without one it is at the top level. -/
  parentId : Option PersistentId := none
  kind : PlaylistKind
  folder : Bool := false
  name : String
  dateAdded : Option Timestamp := none
  dateModified : Option Timestamp := none
  smart : Option Smart := none
  geniusTrackId : Option PersistentId := none
  trackIds : List PersistentId := []
  deriving DecidableEq, Inhabited

namespace Playlist

def empty (id : PersistentId) (name : String) (kind : PlaylistKind) : Playlist :=
  { id, kind, folder := kind = .folder, name }

def isSmart (playlist : Playlist) : Bool := playlist.smart.isSome

/-- Whether the playlist has tracks of its own: folders and smart playlists have none. -/
def storesTracks (playlist : Playlist) : Bool := !playlist.folder && playlist.smart.isNone

/-- The tracks that are stored with the playlist. -/
def storedTrackIds (playlist : Playlist) : List PersistentId :=
  if playlist.storesTracks then playlist.trackIds else []

def columnLabels : List String :=
  ["parent_id", "kind", "folder", "name", "date_added", "date_modified", "smart",
   "genius_track_id"]

def fieldLabels : List String := "id" :: columnLabels ++ ["track_ids"]

def toJson (playlist : Playlist) : Json :=
  .ofMembers [some ("id", playlist.id.toJson),
    Json.member "parent_id" PersistentId.toJson playlist.parentId,
    some ("kind", playlist.kind.toJson), some ("folder", .boolean playlist.folder),
    some ("name", .text playlist.name),
    Json.member "date_added" Timestamp.toJson playlist.dateAdded,
    Json.member "date_modified" Timestamp.toJson playlist.dateModified,
    Json.member "smart" Smart.toJson playlist.smart,
    Json.member "genius_track_id" PersistentId.toJson playlist.geniusTrackId,
    some ("track_ids", .array (playlist.trackIds.map PersistentId.toJson))]

def ofJson? (j : Json) : Option Playlist := do
  let fields ← j.fields? fieldLabels
  let id ← fields.required "id" PersistentId.ofJson?
  let parentId ← fields.optional "parent_id" PersistentId.ofJson?
  let kind ← fields.required "kind" PlaylistKind.ofJson?
  let folder ← fields.orElse "folder" Json.boolean? false
  let name ← fields.required "name" Json.text?
  let dateAdded ← fields.optional "date_added" Timestamp.ofJson?
  let dateModified ← fields.optional "date_modified" Timestamp.ofJson?
  let smart ← fields.optional "smart" Smart.ofJson?
  let geniusTrackId ← fields.optional "genius_track_id" PersistentId.ofJson?
  let trackIds ← fields.orElse "track_ids" (Json.list? PersistentId.ofJson?) []
  return ⟨id, parentId, kind, folder, name, dateAdded, dateModified, smart, geniusTrackId,
    trackIds⟩

end Playlist

end MusicLibrary
