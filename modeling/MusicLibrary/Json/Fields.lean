import MusicLibrary.Word
import MusicLibrary.Json.Basic

/-! Reading records from JSON. A record is an object with its fields by name, or an array with its
fields in declared order. Unknown names are passed over, a known name may occur once. -/

namespace MusicLibrary.Json

abbrev Fields := List (String × Json)

/-- The fields of a record with the given field names. An array may leave out fields at its end. -/
def fields? (names : List String) : Json → Option Fields
  | .object members =>
    let known := members.filter fun m => names.contains m.1
    if (known.map (·.1)).Nodup then some known else none
  | .array items => if items.length ≤ names.length then some (names.zip items) else none
  | _ => none

def Fields.optional (fields : Fields) (name : String) (read : Json → Option α) :
    Option (Option α) :=
  match fields.lookup name with
  | none | some .null => some none
  | some j => (read j).map some

/-- A field that takes a default when it is missing, but not when it is null. -/
def Fields.orElse (fields : Fields) (name : String) (read : Json → Option α) (default : α) :
    Option α :=
  match fields.lookup name with
  | none => some default
  | some j => read j

def Fields.required (fields : Fields) (name : String) (read : Json → Option α) : Option α :=
  (fields.lookup name).bind read

def text? : Json → Option String
  | .text s => some s
  | _ => none

def boolean? : Json → Option Bool
  | .boolean b => some b
  | _ => none

def int64? : Json → Option Int64
  | .integer n => word64? n
  | _ => none

def natBelow? (bound : Nat) : Json → Option Nat
  | .integer n => if 0 ≤ n ∧ n < bound then some n.toNat else none
  | _ => none

def uint64? (j : Json) : Option UInt64 := (j.natBelow? UInt64.size).map UInt64.ofNat

def uint32? (j : Json) : Option UInt32 := (j.natBelow? UInt32.size).map UInt32.ofNat

def list? (read : Json → Option α) : Json → Option (List α)
  | .array items => items.mapM read
  | _ => none

def ofInt64 (n : Int64) : Json := .integer n.toInt

def ofNat (n : Nat) : Json := .integer n

def member (name : String) (write : α → Json) (value : Option α) : Option (String × Json) :=
  value.map fun v => (name, write v)

@[simp] theorem int64?_ofInt64 (n : Int64) : (ofInt64 n).int64? = some n := by
  simp [ofInt64, int64?]

example : (fields? ["a", "b"] (.array [.null])).map (·.length) = some 1 := by decide

end MusicLibrary.Json
