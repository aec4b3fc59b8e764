import MusicLibrary.Record.Playlist
import MusicLibrary.Record.Track

/-! Records of a library file: tracks and playlists, told apart by a tag. -/

namespace MusicLibrary

/-- The two kinds of entries that a library holds. -/
inductive EntityKind where
  | track | playlist
  deriving DecidableEq, Inhabited

def EntityKind.label : EntityKind → String
  | .track => "track"
  | .playlist => "playlist"

def EntityKind.ofLabel? (s : String) : Option EntityKind :=
  if s = "track" then some .track else if s = "playlist" then some .playlist else none

inductive LibraryRecord where
  | track (record : TrackRecord)
  | playlist (record : PlaylistRecord)
  deriving DecidableEq, Inhabited

namespace LibraryRecord

def kind : LibraryRecord → EntityKind
  | .track _ => .track
  | .playlist _ => .playlist

def persistentId : LibraryRecord → Option PersistentId
  | .track record => record.persistentId
  | .playlist record => record.persistentId

def tagLabel : String := "type"

def maxDepth : Nat := 127

def ofTagged? (tag : String) (j : Json) : Option LibraryRecord :=
  match EntityKind.ofLabel? tag with
  | some .track => (TrackRecord.ofJson? j).map .track
  | some .playlist => (PlaylistRecord.ofJson? j).map .playlist
  | none => none

/-- Reads a record: an object with the tag as one of its members, or an array that starts with the
tag. All of the value has to be readable, also what is not looked at. -/
def ofJson? (j : Json) : Option LibraryRecord :=
  if maxDepth < j.depth || !j.isReadable then none
  else match j with
    | .object members =>
      match members.filter (·.1 == tagLabel) with
      | [(_, .text tag)] => ofTagged? tag (.object (members.filter (·.1 != tagLabel)))
      | _ => none
    | .array (.text tag :: items) => ofTagged? tag (.array items)
    | _ => none

def toJson : LibraryRecord → Json
  | .track record => record.toJson
  | .playlist record => record.toJson

end LibraryRecord

end MusicLibrary
