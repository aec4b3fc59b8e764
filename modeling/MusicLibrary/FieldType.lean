import MusicLibrary.MediaKind
import MusicLibrary.PersistentId
import MusicLibrary.Timestamp

/-! Typed fields. Tracks and library records are made of named fields that each hold a value of one
of a few types; whatever treats all fields alike is written once, here, for every such family. -/

namespace MusicLibrary

inductive FieldType where
  | text | integer | flag | time | mediaKind | id
  deriving DecidableEq

namespace FieldType

abbrev Value : FieldType → Type
  | .text => String
  | .integer => Int64
  | .flag => Bool
  | .time => Timestamp
  | .mediaKind => MediaKind
  | .id => PersistentId

instance : (type : FieldType) → DecidableEq type.Value
  | .text => inferInstanceAs (DecidableEq String)
  | .integer => inferInstanceAs (DecidableEq Int64)
  | .flag => inferInstanceAs (DecidableEq Bool)
  | .time => inferInstanceAs (DecidableEq Timestamp)
  | .mediaKind => inferInstanceAs (DecidableEq MediaKind)
  | .id => inferInstanceAs (DecidableEq PersistentId)

def before : (type : FieldType) → type.Value → type.Value → Bool
  | .text, a, b => decide (a < b)
  | .integer, a, b => decide (a < b)
  | .flag, a, b => !a && b
  | .time, a, b => decide (a.ms < b.ms)
  | .mediaKind, a, b => decide (a.bits < b.bits)
  | .id, a, b => decide (a.value < b.value)

def toJson : (type : FieldType) → type.Value → Json
  | .text, s => .text s
  | .integer, n => .ofInt64 n
  | .flag, b => .boolean b
  | .time, t => t.toJson
  | .mediaKind, kind => kind.toJson
  | .id, p => p.toJson

def ofJson? : (type : FieldType) → Json → Option type.Value
  | .text, j => j.text?
  | .integer, j => j.int64?
  | .flag, j => j.boolean?
  | .time, j => Timestamp.ofJson? j
  | .mediaKind, j => MediaKind.ofJson? j
  | .id, j => PersistentId.ofJson? j

end FieldType

/-- A finite family of fields, each with a written name and a type. -/
class FieldFamily (F : Type) where
  all : List F
  label : F → String
  type : F → FieldType

namespace FieldFamily

variable {F : Type} [FieldFamily F]

abbrev Assignment (F : Type) [FieldFamily F] : Type := (field : F) → Option (type field).Value

def labels (F : Type) [FieldFamily F] : List String := (all : List F).map label

/-- The members of a JSON object for the fields that hold a value, in order. -/
def members (value : Assignment F) : List (String × Json) :=
  (all : List F).filterMap fun field =>
    (value field).map fun v => (label field, (type field).toJson v)

def readField (fields : Json.Fields) (field : F) : Option (Option (type field).Value) :=
  fields.optional (label field) (type field).ofJson?

/-- Reads all fields of the family, if each of them can be read. -/
def read? (fields : Json.Fields) : Option (Assignment F) :=
  if (all : List F).all fun field => (readField fields field).isSome then
    some fun field => (readField fields field).join
  else none

end FieldFamily

end MusicLibrary
