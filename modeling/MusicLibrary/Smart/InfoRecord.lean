import MusicLibrary.Bytes.BigEndian
import MusicLibrary.Smart.DecodeFault
import MusicLibrary.Smart.Rule

/-! The info record of a smart playlist: its flags and its limit. The size of a limit is a count
of units that fits thirty-two bits. -/

namespace MusicLibrary.Smart

inductive LimitUnit where
  | minutes | megabytes | items | hours | gigabytes
  deriving DecidableEq

namespace LimitUnit

def code : LimitUnit → UInt8
  | .minutes => 1
  | .megabytes => 2
  | .items => 3
  | .hours => 4
  | .gigabytes => 5

def ofCode? (n : UInt8) : Option LimitUnit :=
  [minutes, megabytes, items, hours, gigabytes].find? fun unit => unit.code == n

def scale : LimitUnit → UInt64
  | .items => 1
  | .megabytes => 1048576
  | .gigabytes => 1073741824
  | .minutes => 60000
  | .hours => 3600000

def cap (unit : LimitUnit) (size : UInt32) : Cap :=
  let amount := size.toUInt64 * unit.scale
  match unit with
  | .items => .items amount
  | .megabytes | .gigabytes => .size amount
  | .minutes | .hours => .time amount

@[simp] theorem ofCode?_code (unit : LimitUnit) : ofCode? unit.code = some unit := by
  cases unit <;> decide

end LimitUnit

/-- The larger unit where it measures a positive amount exactly, else the smaller one. -/
def Cap.unit : Cap → LimitUnit
  | .items _ => .items
  | .size n => if 0 < n ∧ n % LimitUnit.gigabytes.scale = 0 then .gigabytes else .megabytes
  | .time n => if 0 < n ∧ n % LimitUnit.hours.scale = 0 then .hours else .minutes

def Cap.amount : Cap → UInt64
  | .items n | .size n | .time n => n

def Cap.units (cap : Cap) : UInt64 := cap.amount / cap.unit.scale

structure Info where
  liveUpdating : Bool := false
  checkedOnly : Bool := false
  limit : Option Limit := none
  deriving DecidableEq, Inhabited

def info (smart : Smart) : Info := ⟨smart.liveUpdating, smart.checkedOnly, smart.limit⟩

def ofParts (info : Info) (ruleset : RuleSet) : Smart :=
  ⟨ruleset, info.limit, info.liveUpdating, info.checkedOnly⟩

def fit32 (n : Nat) : Nat := min n 4294967295

theorem fit32_eq {n : Nat} (h : n < 4294967296) : fit32 n = n := by
  unfold fit32
  omega

theorem fit32_le (n : Nat) : fit32 n ≤ n := Nat.min_le_left n _

theorem fit32_lt (n : Nat) : fit32 n < 4294967296 := by
  unfold fit32
  omega

namespace Info

def width : Nat := 112

def leastWidth : Nat := 14

/-- The limit in the record; a limit with a unit of an unknown code is ignored. -/
def decodeLimit (bytes : List UInt8) : Option Limit :=
  if Bytes.fieldAt bytes 2 1 = 0 then none
  else (LimitUnit.ofCode? (.ofNat (Bytes.fieldAt bytes 3 1))).map fun unit =>
    { cap := unit.cap (.ofNat (Bytes.fieldAt bytes 8 4))
      field := LimitField.ofCode (.ofNat (Bytes.fieldAt bytes 4 4))
      descending := Bytes.fieldAt bytes 13 1 = 0 }

def decode (bytes : List UInt8) : Except DecodeFault Info := do
  require bytes leastWidth .infoRecord
  return {
    liveUpdating := Bytes.fieldAt bytes 0 1 != 0
    checkedOnly := Bytes.fieldAt bytes 12 1 != 0
    limit := decodeLimit bytes }

def flagByte (flag : Bool) : UInt8 := if flag then 1 else 0

/-- The bytes of the limit, from the third one to the twelfth. -/
def limitBytes : Option Limit → List UInt8
  | none => Bytes.zeros 10
  | some limit =>
    1 :: limit.cap.unit.code :: (Bytes.bigEndian 4 limit.field.code.toNat ++
      Bytes.bigEndian 4 (fit32 limit.cap.units.toNat))

def encode (info : Info) : List UInt8 :=
  flagByte info.liveUpdating :: 1 :: (limitBytes info.limit ++
    flagByte info.checkedOnly :: flagByte (!info.limit.any (·.descending)) :: Bytes.zeros 98)

@[simp] theorem length_limitBytes (limit : Option Limit) : (limitBytes limit).length = 10 := by
  cases limit <;> simp [limitBytes]

@[simp] theorem length_encode (info : Info) : info.encode.length = width := by
  simp [encode, width]

end Info

end MusicLibrary.Smart
