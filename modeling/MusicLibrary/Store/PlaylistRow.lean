import MusicLibrary.Json.Parser
import MusicLibrary.Playlist.Basic
import MusicLibrary.Smart.Stored
import MusicLibrary.Store.Table

/-! Rows of playlists. A row keeps the rules of a smart playlist in their stored form, which need
not be readable; the tracks of a playlist are kept elsewhere. -/

namespace MusicLibrary

/-- What a row holds as the rules of a playlist. -/
inductive StoredRules where
  | absent
  | binary (bytes : List UInt8)
  | text (text : String)
  /-- A number is no rules. -/
  | number (value : Int64)
  deriving DecidableEq, Inhabited

namespace StoredRules

def ofSmart : Option Smart → StoredRules
  | none => .absent
  | some smart => .binary smart.toBytes

def read? : StoredRules → Option (Option Smart)
  | .absent => some none
  | .binary bytes => (Smart.ofBytes bytes).toOption.map some
  | .text json => ((Json.parse? json).bind Smart.ofJson?).map some
  | .number _ => none

end StoredRules

structure PlaylistRow where
  id : PersistentId
  parentId : Option PersistentId
  kind : PlaylistKind
  folder : Bool
  name : String
  dateAdded : Option Timestamp
  dateModified : Option Timestamp
  rules : StoredRules
  geniusTrackId : Option PersistentId
  deriving DecidableEq, Inhabited

namespace PlaylistRow

instance : Keyed PlaylistRow Key := ⟨fun row => row.id.key⟩

/-- The row of a playlist. Ids and the kind are stored as codes, and come back from them. -/
def ofPlaylist (playlist : Playlist) : PlaylistRow where
  id := playlist.id.stored
  parentId := playlist.parentId.map PersistentId.stored
  kind := .ofCode playlist.kind.code
  folder := playlist.folder
  name := playlist.name
  dateAdded := playlist.dateAdded
  dateModified := playlist.dateModified
  rules := .ofSmart playlist.smart
  geniusTrackId := playlist.geniusTrackId.map PersistentId.stored

/-- The playlist of a row with its tracks, if its rules can be read. -/
def playlist? (row : PlaylistRow) (trackIds : List PersistentId) : Option Playlist :=
  row.rules.read?.map fun smart =>
    { id := row.id, parentId := row.parentId, kind := row.kind, folder := row.folder,
      name := row.name, dateAdded := row.dateAdded, dateModified := row.dateModified, smart,
      geniusTrackId := row.geniusTrackId, trackIds }

/-- Whether a row comes no later than another one in a listing: by kind, then by name. -/
def listedBefore (a b : PlaylistRow) : Bool :=
  decide (a.kind.code < b.kind.code) || (a.kind.code == b.kind.code && !decide (b.name < a.name))

end PlaylistRow

end MusicLibrary
