import MusicLibrary.Bytes.BigEndian
import MusicLibrary.Smart.DecodeFault
import MusicLibrary.Word

/-! The fixed payload of numbers, dates, flags and media kinds: three slots, a flag in front of the
second and of the third one, and an offset for relative dates. -/

namespace MusicLibrary.Smart

/-- Three slots of thirty-two bits and what goes with them. -/
structure Slots where
  first : UInt32 := 0
  /-- Not zero if the second slot is in use; the unit of the offset in a relative date. -/
  flagOrUnit : UInt32 := 0
  second : UInt32 := 0
  thirdFlag : UInt32 := 0
  third : UInt32 := 0
  offset : Int64 := 0
  /-- Stands in two places of a relative date; it is written but not read. -/
  marker : UInt32 := 0
  deriving DecidableEq

namespace Slots

def width : Nat := 68

def wordAt (bytes : List UInt8) (start : Nat) : UInt32 := .ofNat (Bytes.fieldAt bytes start 4)

def decode (bytes : List UInt8) : Except DecodeFault Slots := do
  require bytes width .integerPayload
  return {
    marker := wordAt bytes 0
    first := wordAt bytes 4
    offset := (UInt64.ofNat (Bytes.fieldAt bytes 8 8)).toInt64
    flagOrUnit := wordAt bytes 20
    second := wordAt bytes 28
    thirdFlag := wordAt bytes 44
    third := wordAt bytes 52 }

def wordBytes (n : UInt32) : List UInt8 := Bytes.bigEndian 4 n.toNat

def encode (slots : Slots) : List UInt8 :=
  wordBytes slots.marker ++ wordBytes slots.first ++
    Bytes.bigEndian 8 slots.offset.toUInt64.toNat ++ Bytes.zeros 4 ++
    wordBytes slots.flagOrUnit ++ wordBytes slots.marker ++ wordBytes slots.second ++
    Bytes.zeros 12 ++ wordBytes slots.thirdFlag ++ Bytes.zeros 4 ++ wordBytes slots.third ++
    Bytes.zeros 12

@[simp] theorem length_encode (slots : Slots) : slots.encode.length = width := by
  simp [encode, wordBytes, width]

/-- The values in use: the third one only counts behind a second one. -/
def values (slots : Slots) : List UInt32 :=
  if slots.flagOrUnit = 0 then [slots.first]
  else if slots.thirdFlag = 0 then [slots.first, slots.second]
  else [slots.first, slots.second, slots.third]

def ofValues (values : List Int64) : Slots :=
  let low := fun (i : Nat) => (values[i]?.map fun n => n.toUInt64.toUInt32).getD 0
  { first := low 0
    flagOrUnit := if 1 < values.length then 1 else 0
    second := low 1
    thirdFlag := if 2 < values.length then 1 else 0
    third := low 2 }

def single (n : UInt32) : Slots := { first := n }

def relativeMarker : UInt32 := 0x2DAE2DAE

def relative (count : Int64) (unit : UInt32) : Slots :=
  { marker := relativeMarker, first := relativeMarker, second := relativeMarker,
    offset := count, flagOrUnit := unit }

end Slots

end MusicLibrary.Smart
