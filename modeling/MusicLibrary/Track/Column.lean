import MusicLibrary.FieldType

/-! The columns of a track row, with the type of value that each holds. -/

namespace MusicLibrary

namespace Track

/-- A column of a track row other than its id. -/
inductive Column where
  | album | albumArtist | albumRating | artist | bitrate | bpm | comments | compilation
  | composer | dateAdded | dateModified | discCount | discNumber | gapless | genre | grouping
  | kind | location | loved | mediaKind | movementCount | movementName | movementNumber | name
  | playCount | playDate | purchaseDate | purchased | rating | releaseDate | sampleRate | size
  | skipCount | skipDate | sortAlbum | sortAlbumArtist | sortArtist | sortComposer | sortGenre
  | sortName | totalTime | trackCount | trackNumber | volumeAdjustment | work | year
  deriving DecidableEq, Inhabited

namespace Column

def all : List Column :=
  [.album, .albumArtist, .albumRating, .artist, .bitrate, .bpm, .comments, .compilation,
   .composer, .dateAdded, .dateModified, .discCount, .discNumber, .gapless, .genre, .grouping,
   .kind, .location, .loved, .mediaKind, .movementCount, .movementName, .movementNumber, .name,
   .playCount, .playDate, .purchaseDate, .purchased, .rating, .releaseDate, .sampleRate, .size,
   .skipCount, .skipDate, .sortAlbum, .sortAlbumArtist, .sortArtist, .sortComposer, .sortGenre,
   .sortName, .totalTime, .trackCount, .trackNumber, .volumeAdjustment, .work, .year]

def type : Column → FieldType
  | .albumRating | .bitrate | .bpm | .discCount | .discNumber | .movementCount |
    .movementNumber | .playCount | .rating | .sampleRate | .size | .skipCount | .totalTime |
    .trackCount | .trackNumber | .volumeAdjustment | .year => .integer
  | .compilation | .gapless | .loved | .purchased => .flag
  | .dateAdded | .dateModified | .playDate | .purchaseDate | .releaseDate | .skipDate => .time
  | .mediaKind => .mediaKind
  | _ => .text

abbrev Value (column : Column) : Type := column.type.Value

def label : Column → String
  | .album => "album"
  | .albumArtist => "album_artist"
  | .albumRating => "album_rating"
  | .artist => "artist"
  | .bitrate => "bitrate"
  | .bpm => "bpm"
  | .comments => "comments"
  | .compilation => "compilation"
  | .composer => "composer"
  | .dateAdded => "date_added"
  | .dateModified => "date_modified"
  | .discCount => "disc_count"
  | .discNumber => "disc_number"
  | .gapless => "gapless"
  | .genre => "genre"
  | .grouping => "grouping"
  | .kind => "kind"
  | .location => "location"
  | .loved => "loved"
  | .mediaKind => "media_kind"
  | .movementCount => "movement_count"
  | .movementName => "movement_name"
  | .movementNumber => "movement_number"
  | .name => "name"
  | .playCount => "play_count"
  | .playDate => "play_date"
  | .purchaseDate => "purchase_date"
  | .purchased => "purchased"
  | .rating => "rating"
  | .releaseDate => "release_date"
  | .sampleRate => "sample_rate"
  | .size => "size"
  | .skipCount => "skip_count"
  | .skipDate => "skip_date"
  | .sortAlbum => "sort_album"
  | .sortAlbumArtist => "sort_album_artist"
  | .sortArtist => "sort_artist"
  | .sortComposer => "sort_composer"
  | .sortGenre => "sort_genre"
  | .sortName => "sort_name"
  | .totalTime => "total_time"
  | .trackCount => "track_count"
  | .trackNumber => "track_number"
  | .volumeAdjustment => "volume_adjustment"
  | .work => "work"
  | .year => "year"

@[simp] theorem mem_all (column : Column) : column ∈ all := by
  cases column <;> decide

instance : FieldFamily Column := ⟨all, label, type⟩

end Column

end Track

end MusicLibrary
