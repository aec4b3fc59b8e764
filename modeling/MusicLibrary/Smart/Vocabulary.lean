import MusicLibrary.Json.Fields
import MusicLibrary.Text.Numeral
import MusicLibrary.Track.Column

/-! The vocabulary of smart playlist rules: attributes, comparisons, signs and orderings. Each has
a code in the binary records and a name in JSON; a code without a name is kept, and named by its
hexadecimal digits. -/

namespace MusicLibrary.Smart

/-- The name of a code without one: at least two hexadecimal digits. -/
def codeLabel (code : Nat) : String := String.ofList ('0' :: 'x' :: Text.paddedHex 2 code)

def codeOfLabel? (bound : Nat) (s : String) : Option Nat :=
  match s.toList with
  | '0' :: 'x' :: digits => (Text.readUnsigned 16 digits).filter (· < bound)
  | _ => none

/-- The attribute of a track that a rule tests. -/
inductive Field where
  | ruleset | name | album | artist | bitRate | sampleRate | year | genre | kind | dateModified
  | trackNumber | size | totalTime | comments | dateAdded | composer | playCount | playDate
  | discNumber | rating | disabled | compilation | bpm | hasArtwork | grouping
  | playlistPersistentId | purchased | description | category | podcast | mediaKind | series
  | season | skipCount | skipDate | albumArtist | sortName | sortAlbum | sortAlbumArtist
  | sortComposer | sortSeries | videoRating | albumRating | location | cloudStatus | loved
  | other (code : UInt32)
  deriving DecidableEq, Inhabited

namespace Field

def named : List Field :=
  [.ruleset, .name, .album, .artist, .bitRate, .sampleRate, .year, .genre, .kind, .dateModified,
   .trackNumber, .size, .totalTime, .comments, .dateAdded, .composer, .playCount, .playDate,
   .discNumber, .rating, .disabled, .compilation, .bpm, .hasArtwork, .grouping,
   .playlistPersistentId, .purchased, .description, .category, .podcast, .mediaKind, .series,
   .season, .skipCount, .skipDate, .albumArtist, .sortName, .sortAlbum, .sortAlbumArtist,
   .sortComposer, .sortSeries, .videoRating, .albumRating, .location, .cloudStatus, .loved]

def code : Field → UInt32
  | .ruleset => 0x00
  | .name => 0x02
  | .album => 0x03
  | .artist => 0x04
  | .bitRate => 0x05
  | .sampleRate => 0x06
  | .year => 0x07
  | .genre => 0x08
  | .kind => 0x09
  | .dateModified => 0x0A
  | .trackNumber => 0x0B
  | .size => 0x0C
  | .totalTime => 0x0D
  | .comments => 0x0E
  | .dateAdded => 0x10
  | .composer => 0x12
  | .playCount => 0x16
  | .playDate => 0x17
  | .discNumber => 0x18
  | .rating => 0x19
  | .disabled => 0x1D
  | .compilation => 0x1F
  | .bpm => 0x23
  | .hasArtwork => 0x25
  | .grouping => 0x27
  | .playlistPersistentId => 0x28
  | .purchased => 0x29
  | .description => 0x36
  | .category => 0x37
  | .podcast => 0x39
  | .mediaKind => 0x3C
  | .series => 0x3E
  | .season => 0x3F
  | .skipCount => 0x44
  | .skipDate => 0x45
  | .albumArtist => 0x47
  | .sortName => 0x4E
  | .sortAlbum => 0x4F
  | .sortAlbumArtist => 0x51
  | .sortComposer => 0x52
  | .sortSeries => 0x53
  | .videoRating => 0x59
  | .albumRating => 0x5A
  | .location => 0x85
  | .cloudStatus => 0x86
  | .loved => 0x9A
  | .other c => c

/-- The one with a code. -/
def ofCode (c : UInt32) : Field := (named.find? fun x => x.code == c).getD (.other c)

def label : Field → String
  | .ruleset => "ruleset"
  | .name => "name"
  | .album => "album"
  | .artist => "artist"
  | .bitRate => "bitrate"
  | .sampleRate => "sample_rate"
  | .year => "year"
  | .genre => "genre"
  | .kind => "kind"
  | .dateModified => "date_modified"
  | .trackNumber => "track_number"
  | .size => "size"
  | .totalTime => "total_time"
  | .comments => "comments"
  | .dateAdded => "date_added"
  | .composer => "composer"
  | .playCount => "play_count"
  | .playDate => "play_date"
  | .discNumber => "disc_number"
  | .rating => "rating"
  | .disabled => "disabled"
  | .compilation => "compilation"
  | .bpm => "bpm"
  | .hasArtwork => "has_artwork"
  | .grouping => "grouping"
  | .playlistPersistentId => "playlist_persistent_id"
  | .purchased => "purchased"
  | .description => "description"
  | .category => "category"
  | .podcast => "podcast"
  | .mediaKind => "media_kind"
  | .series => "series"
  | .season => "season"
  | .skipCount => "skip_count"
  | .skipDate => "skip_date"
  | .albumArtist => "album_artist"
  | .sortName => "sort_name"
  | .sortAlbum => "sort_album"
  | .sortAlbumArtist => "sort_album_artist"
  | .sortComposer => "sort_composer"
  | .sortSeries => "sort_series"
  | .videoRating => "video_rating"
  | .albumRating => "album_rating"
  | .location => "location"
  | .cloudStatus => "icloud_status"
  | .loved => "loved"
  | .other c => codeLabel c.toNat

def ofLabel? (s : String) : Option Field :=
  (named.find? fun x => x.label == s) <|>
    (codeOfLabel? UInt32.size s).map fun n => ofCode (.ofNat n)

def toJson (x : Field) : Json := .text x.label

def ofJson? (j : Json) : Option Field := j.text?.bind ofLabel?

/-- A named one is found by its code. -/
theorem ofCode_code_of_mem {x : Field} (h : x ∈ named) : ofCode x.code = x := by
  revert x; decide

def column? : Field → Option Track.Column
  | .name => some .name
  | .album => some .album
  | .artist => some .artist
  | .bitRate => some .bitrate
  | .sampleRate => some .sampleRate
  | .year => some .year
  | .genre => some .genre
  | .kind => some .kind
  | .dateModified => some .dateModified
  | .trackNumber => some .trackNumber
  | .size => some .size
  | .totalTime => some .totalTime
  | .comments => some .comments
  | .dateAdded => some .dateAdded
  | .composer => some .composer
  | .playCount => some .playCount
  | .playDate => some .playDate
  | .discNumber => some .discNumber
  | .rating => some .rating
  | .compilation => some .compilation
  | .bpm => some .bpm
  | .grouping => some .grouping
  | .purchased => some .purchased
  | .mediaKind => some .mediaKind
  | .skipCount => some .skipCount
  | .skipDate => some .skipDate
  | .albumArtist => some .albumArtist
  | .sortName => some .sortName
  | .sortAlbum => some .sortAlbum
  | .sortAlbumArtist => some .sortAlbumArtist
  | .sortComposer => some .sortComposer
  | .albumRating => some .albumRating
  | .loved => some .loved
  | _ => none

end Field

inductive Operator where
  | is | contains | startsWith | endsWith | greaterThan | lessThan | between | within | bitwise
  | other (code : UInt16)
  deriving DecidableEq, Inhabited

namespace Operator

def named : List Operator :=
  [.is, .contains, .startsWith, .endsWith, .greaterThan, .lessThan, .between, .within, .bitwise]

def code : Operator → UInt16
  | .is => 0x1
  | .contains => 0x2
  | .startsWith => 0x4
  | .endsWith => 0x8
  | .greaterThan => 0x10
  | .lessThan => 0x40
  | .between => 0x100
  | .within => 0x200
  | .bitwise => 0x400
  | .other c => c

def ofCode (c : UInt16) : Operator := (named.find? fun x => x.code == c).getD (.other c)

def label : Operator → String
  | .is => "IS"
  | .contains => "CONTAINS"
  | .startsWith => "STARTSWITH"
  | .endsWith => "ENDSWITH"
  | .greaterThan => "GREATERTHAN"
  | .lessThan => "LESSTHAN"
  | .between => "BETWEEN"
  | .within => "WITHIN"
  | .bitwise => "BITWISE"
  | .other c => codeLabel c.toNat

def ofLabel? (s : String) : Option Operator :=
  (named.find? fun x => x.label == s) <|>
    (codeOfLabel? UInt16.size s).map fun n => ofCode (.ofNat n)

def toJson (x : Operator) : Json := .text x.label

def ofJson? (j : Json) : Option Operator := j.text?.bind ofLabel?

/-- A named one is found by its code. -/
theorem ofCode_code_of_mem {x : Operator} (h : x ∈ named) : ofCode x.code = x := by
  revert x; decide

end Operator

/-- Whether a rule is negated. Rules on text have signs of their own. -/
inductive Sign where
  | pos | strPos | neg | strNeg
  | other (code : UInt8)
  deriving DecidableEq, Inhabited

namespace Sign

def named : List Sign :=
  [.pos, .strPos, .neg, .strNeg]

def code : Sign → UInt8
  | .pos => 0
  | .strPos => 1
  | .neg => 2
  | .strNeg => 3
  | .other c => c

def ofCode (c : UInt8) : Sign := (named.find? fun x => x.code == c).getD (.other c)

def label : Sign → String
  | .pos => "POS"
  | .strPos => "STRPOS"
  | .neg => "NEG"
  | .strNeg => "STRNEG"
  | .other c => codeLabel c.toNat

def ofLabel? (s : String) : Option Sign :=
  (named.find? fun x => x.label == s) <|> (codeOfLabel? UInt8.size s).map fun n => ofCode (.ofNat n)

def toJson (x : Sign) : Json := .text x.label

def ofJson? (j : Json) : Option Sign := j.text?.bind ofLabel?

/-- A named one is found by its code. -/
theorem ofCode_code_of_mem {x : Sign} (h : x ∈ named) : ofCode x.code = x := by
  revert x; decide

def isNegated : Sign → Bool
  | .neg | .strNeg => true
  | _ => false

end Sign

/-- The attribute by which a limit chooses the tracks to keep. -/
inductive LimitField where
  | lowestRating | random | name | album | artist | genre | dateAdded | playCount | playDate
  | rating
  | other (code : UInt32)
  deriving DecidableEq, Inhabited

namespace LimitField

def named : List LimitField :=
  [.lowestRating, .random, .name, .album, .artist, .genre, .dateAdded, .playCount, .playDate,
   .rating]

def code : LimitField → UInt32
  | .lowestRating => 0x01
  | .random => 0x02
  | .name => 0x05
  | .album => 0x06
  | .artist => 0x07
  | .genre => 0x09
  | .dateAdded => 0x15
  | .playCount => 0x19
  | .playDate => 0x1A
  | .rating => 0x1C
  | .other c => c

def ofCode (c : UInt32) : LimitField := (named.find? fun x => x.code == c).getD (.other c)

def label : LimitField → String
  | .lowestRating => "lowest_rating"
  | .random => "random"
  | .name => "name"
  | .album => "album"
  | .artist => "artist"
  | .genre => "genre"
  | .dateAdded => "date_added"
  | .playCount => "play_count"
  | .playDate => "play_date"
  | .rating => "rating"
  | .other c => codeLabel c.toNat

def ofLabel? (s : String) : Option LimitField :=
  (named.find? fun x => x.label == s) <|>
    (codeOfLabel? UInt32.size s).map fun n => ofCode (.ofNat n)

def toJson (x : LimitField) : Json := .text x.label

def ofJson? (j : Json) : Option LimitField := j.text?.bind ofLabel?

/-- A named one is found by its code. -/
theorem ofCode_code_of_mem {x : LimitField} (h : x ∈ named) : ofCode x.code = x := by
  revert x; decide

end LimitField

inductive Conjunction where
  | and | or
  deriving DecidableEq, Inhabited

namespace Conjunction

def code : Conjunction → UInt32
  | .and => 0
  | .or => 1

/-- Every code but that of "or" means "and". -/
def ofCode (c : UInt32) : Conjunction := if c = 1 then .or else .and

/-- The word for the conjunction, the same in JSON and in a query. -/
def word : Conjunction → String
  | .and => "AND"
  | .or => "OR"

def ofWord? (s : String) : Option Conjunction :=
  if s = "AND" then some .and else if s = "OR" then some .or else none

def toJson (c : Conjunction) : Json := .text c.word

/-- Reads a word, or an object with the word as its only key and null as its value. -/
def ofJson? : Json → Option Conjunction
  | .text s => ofWord? s
  | .object [(s, .null)] => ofWord? s
  | _ => none

@[simp] theorem ofJson?_toJson (c : Conjunction) : ofJson? c.toJson = some c := by
  cases c <;> rfl

end Conjunction

end MusicLibrary.Smart
