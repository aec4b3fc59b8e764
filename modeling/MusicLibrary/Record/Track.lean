import MusicLibrary.FieldType

/-! Track records of a library file. Every field is optional, because a file leaves out keys
freely. A record carries a number that has a meaning in its own file only, so the number is read
but never written. -/

namespace MusicLibrary

namespace TrackRecord

inductive Field where
  | persistentId | album | albumArtist | albumRating | artist | bpm | bitRate | comments
  | compilation | composer | dateAdded | dateModified | disabled | discCount | discNumber | genre
  | grouping | kind | location | loved | movementCount | movementName | movementNumber | movie
  | musicVideo | name | partOfGaplessAlbum | playCount | playDate | podcast | purchaseDate
  | purchased | rating | releaseDate | sampleRate | size | skipCount | skipDate | sortAlbum
  | sortAlbumArtist | sortArtist | sortComposer | sortName | totalTime | trackCount | trackNumber
  | tvShow | volumeAdjustment | work | year
  deriving DecidableEq, Inhabited

namespace Field

def all : List Field :=
  [.persistentId, .album, .albumArtist, .albumRating, .artist, .bpm, .bitRate, .comments,
   .compilation, .composer, .dateAdded, .dateModified, .disabled, .discCount, .discNumber,
   .genre, .grouping, .kind, .location, .loved, .movementCount, .movementName, .movementNumber,
   .movie, .musicVideo, .name, .partOfGaplessAlbum, .playCount, .playDate, .podcast,
   .purchaseDate, .purchased, .rating, .releaseDate, .sampleRate, .size, .skipCount, .skipDate,
   .sortAlbum, .sortAlbumArtist, .sortArtist, .sortComposer, .sortName, .totalTime, .trackCount,
   .trackNumber, .tvShow, .volumeAdjustment, .work, .year]

def type : Field → FieldType
  | .albumRating | .bpm | .bitRate | .discCount | .discNumber | .movementCount |
    .movementNumber | .playCount | .rating | .sampleRate | .size | .skipCount | .totalTime |
    .trackCount | .trackNumber | .volumeAdjustment | .year => .integer
  | .compilation | .disabled | .loved | .movie | .musicVideo | .partOfGaplessAlbum | .podcast |
    .purchased | .tvShow => .flag
  | .dateAdded | .dateModified | .playDate | .purchaseDate | .releaseDate | .skipDate => .time
  | .persistentId => .id
  | _ => .text

abbrev Value (field : Field) : Type := field.type.Value

def label : Field → String
  | .persistentId => "persistent_id"
  | .album => "album"
  | .albumArtist => "album_artist"
  | .albumRating => "album_rating"
  | .artist => "artist"
  | .bpm => "bpm"
  | .bitRate => "bit_rate"
  | .comments => "comments"
  | .compilation => "compilation"
  | .composer => "composer"
  | .dateAdded => "date_added"
  | .dateModified => "date_modified"
  | .disabled => "disabled"
  | .discCount => "disc_count"
  | .discNumber => "disc_number"
  | .genre => "genre"
  | .grouping => "grouping"
  | .kind => "kind"
  | .location => "location"
  | .loved => "loved"
  | .movementCount => "movement_count"
  | .movementName => "movement_name"
  | .movementNumber => "movement_number"
  | .movie => "movie"
  | .musicVideo => "music_video"
  | .name => "name"
  | .partOfGaplessAlbum => "part_of_gapless_album"
  | .playCount => "play_count"
  | .playDate => "play_date"
  | .podcast => "podcast"
  | .purchaseDate => "purchase_date"
  | .purchased => "purchased"
  | .rating => "rating"
  | .releaseDate => "release_date"
  | .sampleRate => "sample_rate"
  | .size => "size"
  | .skipCount => "skip_count"
  | .skipDate => "skip_date"
  | .sortAlbum => "sort_album"
  | .sortAlbumArtist => "sort_album_artist"
  | .sortArtist => "sort_artist"
  | .sortComposer => "sort_composer"
  | .sortName => "sort_name"
  | .totalTime => "total_time"
  | .trackCount => "track_count"
  | .trackNumber => "track_number"
  | .tvShow => "tv_show"
  | .volumeAdjustment => "volume_adjustment"
  | .work => "work"
  | .year => "year"

@[simp] theorem mem_all (field : Field) : field ∈ all := by
  cases field <;> decide

instance : FieldFamily Field := ⟨all, label, type⟩

end Field

end TrackRecord

structure TrackRecord where
  number : Option Int64 := none
  persistentId : Option PersistentId := none
  album : Option String := none
  albumArtist : Option String := none
  albumRating : Option Int64 := none
  artist : Option String := none
  bpm : Option Int64 := none
  bitRate : Option Int64 := none
  comments : Option String := none
  compilation : Option Bool := none
  composer : Option String := none
  dateAdded : Option Timestamp := none
  dateModified : Option Timestamp := none
  disabled : Option Bool := none
  discCount : Option Int64 := none
  discNumber : Option Int64 := none
  genre : Option String := none
  grouping : Option String := none
  kind : Option String := none
  location : Option String := none
  loved : Option Bool := none
  movementCount : Option Int64 := none
  movementName : Option String := none
  movementNumber : Option Int64 := none
  movie : Option Bool := none
  musicVideo : Option Bool := none
  name : Option String := none
  partOfGaplessAlbum : Option Bool := none
  playCount : Option Int64 := none
  playDate : Option Timestamp := none
  podcast : Option Bool := none
  purchaseDate : Option Timestamp := none
  purchased : Option Bool := none
  rating : Option Int64 := none
  releaseDate : Option Timestamp := none
  sampleRate : Option Int64 := none
  size : Option Int64 := none
  skipCount : Option Int64 := none
  skipDate : Option Timestamp := none
  sortAlbum : Option String := none
  sortAlbumArtist : Option String := none
  sortArtist : Option String := none
  sortComposer : Option String := none
  sortName : Option String := none
  totalTime : Option Int64 := none
  trackCount : Option Int64 := none
  trackNumber : Option Int64 := none
  tvShow : Option Bool := none
  volumeAdjustment : Option Int64 := none
  work : Option String := none
  year : Option Int64 := none
  deriving DecidableEq, Inhabited

namespace TrackRecord

def get (record : TrackRecord) : (field : Field) → Option field.Value
  | .persistentId => record.persistentId
  | .album => record.album
  | .albumArtist => record.albumArtist
  | .albumRating => record.albumRating
  | .artist => record.artist
  | .bpm => record.bpm
  | .bitRate => record.bitRate
  | .comments => record.comments
  | .compilation => record.compilation
  | .composer => record.composer
  | .dateAdded => record.dateAdded
  | .dateModified => record.dateModified
  | .disabled => record.disabled
  | .discCount => record.discCount
  | .discNumber => record.discNumber
  | .genre => record.genre
  | .grouping => record.grouping
  | .kind => record.kind
  | .location => record.location
  | .loved => record.loved
  | .movementCount => record.movementCount
  | .movementName => record.movementName
  | .movementNumber => record.movementNumber
  | .movie => record.movie
  | .musicVideo => record.musicVideo
  | .name => record.name
  | .partOfGaplessAlbum => record.partOfGaplessAlbum
  | .playCount => record.playCount
  | .playDate => record.playDate
  | .podcast => record.podcast
  | .purchaseDate => record.purchaseDate
  | .purchased => record.purchased
  | .rating => record.rating
  | .releaseDate => record.releaseDate
  | .sampleRate => record.sampleRate
  | .size => record.size
  | .skipCount => record.skipCount
  | .skipDate => record.skipDate
  | .sortAlbum => record.sortAlbum
  | .sortAlbumArtist => record.sortAlbumArtist
  | .sortArtist => record.sortArtist
  | .sortComposer => record.sortComposer
  | .sortName => record.sortName
  | .totalTime => record.totalTime
  | .trackCount => record.trackCount
  | .trackNumber => record.trackNumber
  | .tvShow => record.tvShow
  | .volumeAdjustment => record.volumeAdjustment
  | .work => record.work
  | .year => record.year

def ofFields (value : (field : Field) → Option field.Value) : TrackRecord where
  persistentId := value .persistentId
  album := value .album
  albumArtist := value .albumArtist
  albumRating := value .albumRating
  artist := value .artist
  bpm := value .bpm
  bitRate := value .bitRate
  comments := value .comments
  compilation := value .compilation
  composer := value .composer
  dateAdded := value .dateAdded
  dateModified := value .dateModified
  disabled := value .disabled
  discCount := value .discCount
  discNumber := value .discNumber
  genre := value .genre
  grouping := value .grouping
  kind := value .kind
  location := value .location
  loved := value .loved
  movementCount := value .movementCount
  movementName := value .movementName
  movementNumber := value .movementNumber
  movie := value .movie
  musicVideo := value .musicVideo
  name := value .name
  partOfGaplessAlbum := value .partOfGaplessAlbum
  playCount := value .playCount
  playDate := value .playDate
  podcast := value .podcast
  purchaseDate := value .purchaseDate
  purchased := value .purchased
  rating := value .rating
  releaseDate := value .releaseDate
  sampleRate := value .sampleRate
  size := value .size
  skipCount := value .skipCount
  skipDate := value .skipDate
  sortAlbum := value .sortAlbum
  sortAlbumArtist := value .sortAlbumArtist
  sortArtist := value .sortArtist
  sortComposer := value .sortComposer
  sortName := value .sortName
  totalTime := value .totalTime
  trackCount := value .trackCount
  trackNumber := value .trackNumber
  tvShow := value .tvShow
  volumeAdjustment := value .volumeAdjustment
  work := value .work
  year := value .year

/-- Reading a field of a record that was built field by field. -/
@[simp] theorem get_ofFields (value : (field : Field) → Option field.Value) (field : Field) :
    (ofFields value).get field = value field := by
  cases field <;> rfl

/-- A record without its number is its fields. -/
theorem ofFields_get (record : TrackRecord) :
    ofFields record.get = { record with number := none } := rfl

def isImportable (record : TrackRecord) : Bool :=
  !record.disabled.getD false && record.location.any (! ·.isEmpty)

def numberLabel : String := "track_id"

def toJson (record : TrackRecord) : Json := .object (FieldFamily.members record.get)

/-- Reads a record by names, or by position with the number first. -/
def ofJson? (j : Json) : Option TrackRecord := do
  let fields ← j.fields? (numberLabel :: FieldFamily.labels Field)
  let number ← fields.optional numberLabel Json.int64?
  let value ← FieldFamily.read? (F := Field) fields
  return { ofFields value with number }

end TrackRecord

end MusicLibrary
