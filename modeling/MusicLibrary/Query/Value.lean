import MusicLibrary.Query.NumericText
import MusicLibrary.Track.Basic

/-! Values in queries: what is bound to a placeholder, and what a column of a row holds. -/

namespace MusicLibrary.Query

inductive Value where
  | integer (n : Int64)
  | text (s : String)
  deriving DecidableEq

namespace Value

def toText : Value → String
  | .integer n => toString n.toInt
  | .text s => s

/-- Compares what a column holds with a bound value, which first takes on the column's type: a
number column reads a text as a number if it can, and else comes before it. -/
def order : Value → Value → Ordering
  | .integer a, .integer b => compare a.toInt b.toInt
  | .integer a, .text b => ((Number.ofText? b).map (Number.orderInt a.toInt)).getD .lt
  | .text a, b => compare a b.toText

def toJson : Value → Json
  | .integer n => .ofInt64 n
  | .text s => .text s

def ofField : (type : FieldType) → type.Value → Value
  | .text, s => .text s
  | .integer, n => .integer n
  | .flag, b => .integer (if b then 1 else 0)
  | .time, t => .integer t.ms
  | .mediaKind, kind => .integer kind.bits.toUInt64.toInt64
  | .id, id => .integer id.key

end Value

def cell (track : Track) (column : Track.Column) : Option Value :=
  (track.get column).map (Value.ofField column.type)

end MusicLibrary.Query
