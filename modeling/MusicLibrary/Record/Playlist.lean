import MusicLibrary.FieldType
import MusicLibrary.Text.Blank

/-! Playlist records of a library file. As with tracks every field is optional, and the number that
a file gives a playlist is read but never written. -/

namespace MusicLibrary

namespace PlaylistRecord

inductive Field where
  | persistentId | parentPersistentId | name | dateAdded | dateModified | folder | master
  | visible | allItems | music | movies | tvShows | podcasts | audiobooks | purchasedMusic
  | distinguishedKind | geniusTrackId | smartInfo | smartCriteria
  deriving DecidableEq, Inhabited

namespace Field

def all : List Field :=
  [.persistentId, .parentPersistentId, .name, .dateAdded, .dateModified, .folder, .master,
   .visible, .allItems, .music, .movies, .tvShows, .podcasts, .audiobooks, .purchasedMusic,
   .distinguishedKind, .geniusTrackId, .smartInfo, .smartCriteria]

def type : Field → FieldType
  | .distinguishedKind => .integer
  | .folder | .master | .visible | .allItems | .music | .movies | .tvShows | .podcasts |
    .audiobooks | .purchasedMusic => .flag
  | .dateAdded | .dateModified => .time
  | .persistentId | .parentPersistentId | .geniusTrackId => .id
  | _ => .text

abbrev Value (field : Field) : Type := field.type.Value

def label : Field → String
  | .persistentId => "persistent_id"
  | .parentPersistentId => "parent_persistent_id"
  | .name => "name"
  | .dateAdded => "date_added"
  | .dateModified => "date_modified"
  | .folder => "folder"
  | .master => "master"
  | .visible => "visible"
  | .allItems => "all_items"
  | .music => "music"
  | .movies => "movies"
  | .tvShows => "tv_shows"
  | .podcasts => "podcasts"
  | .audiobooks => "audiobooks"
  | .purchasedMusic => "purchased_music"
  | .distinguishedKind => "distinguished_kind"
  | .geniusTrackId => "genius_track_id"
  | .smartInfo => "smart_info"
  | .smartCriteria => "smart_criteria"

@[simp] theorem mem_all (field : Field) : field ∈ all := by
  cases field <;> decide

instance : FieldFamily Field := ⟨all, label, type⟩

end Field

end PlaylistRecord

structure PlaylistRecord where
  /-- The number of the playlist in its file. -/
  number : Option Int64 := none
  persistentId : Option PersistentId := none
  parentPersistentId : Option PersistentId := none
  name : Option String := none
  dateAdded : Option Timestamp := none
  dateModified : Option Timestamp := none
  folder : Option Bool := none
  master : Option Bool := none
  visible : Option Bool := none
  allItems : Option Bool := none
  music : Option Bool := none
  movies : Option Bool := none
  tvShows : Option Bool := none
  podcasts : Option Bool := none
  audiobooks : Option Bool := none
  purchasedMusic : Option Bool := none
  distinguishedKind : Option Int64 := none
  geniusTrackId : Option PersistentId := none
  smartInfo : Option String := none
  smartCriteria : Option String := none
  trackIds : List PersistentId := []
  deriving DecidableEq, Inhabited

namespace PlaylistRecord

def get (record : PlaylistRecord) : (field : Field) → Option field.Value
  | .persistentId => record.persistentId
  | .parentPersistentId => record.parentPersistentId
  | .name => record.name
  | .dateAdded => record.dateAdded
  | .dateModified => record.dateModified
  | .folder => record.folder
  | .master => record.master
  | .visible => record.visible
  | .allItems => record.allItems
  | .music => record.music
  | .movies => record.movies
  | .tvShows => record.tvShows
  | .podcasts => record.podcasts
  | .audiobooks => record.audiobooks
  | .purchasedMusic => record.purchasedMusic
  | .distinguishedKind => record.distinguishedKind
  | .geniusTrackId => record.geniusTrackId
  | .smartInfo => record.smartInfo
  | .smartCriteria => record.smartCriteria

def ofFields (value : (field : Field) → Option field.Value) : PlaylistRecord where
  persistentId := value .persistentId
  parentPersistentId := value .parentPersistentId
  name := value .name
  dateAdded := value .dateAdded
  dateModified := value .dateModified
  folder := value .folder
  master := value .master
  visible := value .visible
  allItems := value .allItems
  music := value .music
  movies := value .movies
  tvShows := value .tvShows
  podcasts := value .podcasts
  audiobooks := value .audiobooks
  purchasedMusic := value .purchasedMusic
  distinguishedKind := value .distinguishedKind
  geniusTrackId := value .geniusTrackId
  smartInfo := value .smartInfo
  smartCriteria := value .smartCriteria

@[simp] theorem get_ofFields (value : (field : Field) → Option field.Value) (field : Field) :
    (ofFields value).get field = value field := by
  cases field <;> rfl

/-- A record without its number and its tracks is its fields. -/
theorem ofFields_get (record : PlaylistRecord) :
    ofFields record.get = { record with number := none, trackIds := [] } := rfl

def isFolder (record : PlaylistRecord) : Bool := record.folder.getD false

def isSmart (record : PlaylistRecord) : Bool :=
  !record.isFolder && record.geniusTrackId.isNone &&
    record.smartInfo.any (! Text.isBlankText ·) && record.smartCriteria.any (! Text.isBlankText ·)

/-- The master list of the library and the lists built into the application. -/
def isSystem (record : PlaylistRecord) : Bool :=
  record.master.getD false || record.music.getD false || record.movies.getD false ||
    record.tvShows.getD false || record.podcasts.getD false || record.audiobooks.getD false ||
    record.purchasedMusic.getD false || record.distinguishedKind.isSome

def numberLabel : String := "playlist_id"

def trackIdsLabel : String := "track_ids"

/-- The record in JSON: the fields that are set, in order, and the tracks if there are any. -/
def toJson (record : PlaylistRecord) : Json :=
  let tracks := if record.trackIds.isEmpty then []
    else [(trackIdsLabel, Json.array (record.trackIds.map PersistentId.toJson))]
  .object (FieldFamily.members record.get ++ tracks)

/-- Reads a record by names, or by position with the number first and the tracks last. -/
def ofJson? (j : Json) : Option PlaylistRecord := do
  let fields ← j.fields? (numberLabel :: FieldFamily.labels Field ++ [trackIdsLabel])
  let number ← fields.optional numberLabel Json.int64?
  let value ← FieldFamily.read? (F := Field) fields
  let trackIds ← fields.orElse trackIdsLabel (Json.list? PersistentId.ofJson?) []
  return { ofFields value with number, trackIds }

end PlaylistRecord

end MusicLibrary
