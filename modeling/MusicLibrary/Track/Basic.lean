import MusicLibrary.Track.Column

/-! Tracks: an id and one optional value for each column. A track can be built and read column by
column, which is how merging, storing and writing go over it. -/

namespace MusicLibrary

structure Track where
  id : PersistentId
  album : Option String := none
  albumArtist : Option String := none
  albumRating : Option Int64 := none
  artist : Option String := none
  bitrate : Option Int64 := none
  bpm : Option Int64 := none
  comments : Option String := none
  compilation : Option Bool := none
  composer : Option String := none
  dateAdded : Option Timestamp := none
  dateModified : Option Timestamp := none
  discCount : Option Int64 := none
  discNumber : Option Int64 := none
  gapless : Option Bool := none
  genre : Option String := none
  grouping : Option String := none
  kind : Option String := none
  location : Option String := none
  loved : Option Bool := none
  mediaKind : Option MediaKind := none
  movementCount : Option Int64 := none
  movementName : Option String := none
  movementNumber : Option Int64 := none
  name : Option String := none
  playCount : Option Int64 := none
  playDate : Option Timestamp := none
  purchaseDate : Option Timestamp := none
  purchased : Option Bool := none
  rating : Option Int64 := none
  releaseDate : Option Timestamp := none
  sampleRate : Option Int64 := none
  size : Option Int64 := none
  skipCount : Option Int64 := none
  skipDate : Option Timestamp := none
  sortAlbum : Option String := none
  sortAlbumArtist : Option String := none
  sortArtist : Option String := none
  sortComposer : Option String := none
  sortGenre : Option String := none
  sortName : Option String := none
  totalTime : Option Int64 := none
  trackCount : Option Int64 := none
  trackNumber : Option Int64 := none
  volumeAdjustment : Option Int64 := none
  work : Option String := none
  year : Option Int64 := none
  deriving DecidableEq, Inhabited

namespace Track

def get (track : Track) : (column : Column) → Option column.Value
  | .album => track.album
  | .albumArtist => track.albumArtist
  | .albumRating => track.albumRating
  | .artist => track.artist
  | .bitrate => track.bitrate
  | .bpm => track.bpm
  | .comments => track.comments
  | .compilation => track.compilation
  | .composer => track.composer
  | .dateAdded => track.dateAdded
  | .dateModified => track.dateModified
  | .discCount => track.discCount
  | .discNumber => track.discNumber
  | .gapless => track.gapless
  | .genre => track.genre
  | .grouping => track.grouping
  | .kind => track.kind
  | .location => track.location
  | .loved => track.loved
  | .mediaKind => track.mediaKind
  | .movementCount => track.movementCount
  | .movementName => track.movementName
  | .movementNumber => track.movementNumber
  | .name => track.name
  | .playCount => track.playCount
  | .playDate => track.playDate
  | .purchaseDate => track.purchaseDate
  | .purchased => track.purchased
  | .rating => track.rating
  | .releaseDate => track.releaseDate
  | .sampleRate => track.sampleRate
  | .size => track.size
  | .skipCount => track.skipCount
  | .skipDate => track.skipDate
  | .sortAlbum => track.sortAlbum
  | .sortAlbumArtist => track.sortAlbumArtist
  | .sortArtist => track.sortArtist
  | .sortComposer => track.sortComposer
  | .sortGenre => track.sortGenre
  | .sortName => track.sortName
  | .totalTime => track.totalTime
  | .trackCount => track.trackCount
  | .trackNumber => track.trackNumber
  | .volumeAdjustment => track.volumeAdjustment
  | .work => track.work
  | .year => track.year

def ofColumns (id : PersistentId) (value : (column : Column) → Option column.Value) : Track where
  id := id
  album := value .album
  albumArtist := value .albumArtist
  albumRating := value .albumRating
  artist := value .artist
  bitrate := value .bitrate
  bpm := value .bpm
  comments := value .comments
  compilation := value .compilation
  composer := value .composer
  dateAdded := value .dateAdded
  dateModified := value .dateModified
  discCount := value .discCount
  discNumber := value .discNumber
  gapless := value .gapless
  genre := value .genre
  grouping := value .grouping
  kind := value .kind
  location := value .location
  loved := value .loved
  mediaKind := value .mediaKind
  movementCount := value .movementCount
  movementName := value .movementName
  movementNumber := value .movementNumber
  name := value .name
  playCount := value .playCount
  playDate := value .playDate
  purchaseDate := value .purchaseDate
  purchased := value .purchased
  rating := value .rating
  releaseDate := value .releaseDate
  sampleRate := value .sampleRate
  size := value .size
  skipCount := value .skipCount
  skipDate := value .skipDate
  sortAlbum := value .sortAlbum
  sortAlbumArtist := value .sortAlbumArtist
  sortArtist := value .sortArtist
  sortComposer := value .sortComposer
  sortGenre := value .sortGenre
  sortName := value .sortName
  totalTime := value .totalTime
  trackCount := value .trackCount
  trackNumber := value .trackNumber
  volumeAdjustment := value .volumeAdjustment
  work := value .work
  year := value .year

@[simp] theorem id_ofColumns (id : PersistentId)
    (value : (column : Column) → Option column.Value) : (ofColumns id value).id = id := rfl

@[simp] theorem get_ofColumns (id : PersistentId)
    (value : (column : Column) → Option column.Value) (column : Column) :
    (ofColumns id value).get column = value column := by
  cases column <;> rfl

/-- A track is its id and its columns. -/
theorem ofColumns_get (track : Track) : ofColumns track.id track.get = track := rfl

/-- Two tracks are equal if their ids and all their columns are. -/
theorem ext_columns {a b : Track} (id : a.id = b.id) (h : ∀ column, a.get column = b.get column) :
    a = b := by
  rw [← ofColumns_get a, ← ofColumns_get b, id, funext h]

def displayName (track : Track) : String := track.name.getD ""

end Track

end MusicLibrary
