/-! Big-endian UTF-16. Decoding never fails: a surrogate without its partner, and a byte left
over at the end, each become the replacement character. -/

namespace MusicLibrary.Text.Utf16

/-- Stands for what cannot be decoded. -/
def replacement : Char := '\ufffd'

def isHigh (unit : Nat) : Bool := 0xD800 ≤ unit && unit < 0xDC00

def isLow (unit : Nat) : Bool := 0xDC00 ≤ unit && unit < 0xE000

def pair (high low : Nat) : Char :=
  Char.ofNat (0x10000 + (high - 0xD800) * 0x400 + (low - 0xDC00))

def single (unit : Nat) : Char :=
  if isHigh unit || isLow unit then replacement else Char.ofNat unit

def ofUnits : List Nat → List Char
  | [] => []
  | [u] => [single u]
  | u :: v :: rest =>
    if isHigh u && isLow v then pair u v :: ofUnits rest else single u :: ofUnits (v :: rest)

def units (c : Char) : List Nat :=
  if c.toNat < 0x10000 then [c.toNat]
  else [0xD800 + (c.toNat - 0x10000) / 0x400, 0xDC00 + (c.toNat - 0x10000) % 0x400]

/-- Two bytes make a unit; the flag tells whether one byte is left over. -/
def unitsOfBytes : List UInt8 → List Nat × Bool
  | [] => ([], false)
  | [_] => ([], true)
  | a :: b :: rest =>
    let read := unitsOfBytes rest
    ((a.toNat * 256 + b.toNat) :: read.1, read.2)

def decode (bytes : List UInt8) : String :=
  let read := unitsOfBytes bytes
  String.ofList (ofUnits read.1 ++ if read.2 then [replacement] else [])

def encode (s : String) : List UInt8 :=
  (s.toList.flatMap units).flatMap fun unit => [UInt8.ofNat (unit / 256), UInt8.ofNat (unit % 256)]

@[simp] theorem units_ne_nil (c : Char) : units c ≠ [] := by
  unfold units; split <;> simp

example : ofUnits [0xD83D, 0xDE00, 0xD83D, 65] = ['😀', replacement, 'A'] := by decide

end MusicLibrary.Text.Utf16
