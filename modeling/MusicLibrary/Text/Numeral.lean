/-! Numerals: reading digits in a base of at most sixteen, and writing hexadecimal digits in
upper case. A sign may stand in front of the digits, but never alone. -/

namespace MusicLibrary.Text

/-- The value of a digit; letters of either case stand for ten to fifteen. -/
def digitValue? (c : Char) : Option Nat :=
  if '0' ≤ c ∧ c ≤ '9' then some (c.toNat - 48)
  else if 'a' ≤ c ∧ c ≤ 'f' then some (c.toNat - 87)
  else if 'A' ≤ c ∧ c ≤ 'F' then some (c.toNat - 55)
  else none

def pushDigit (base n : Nat) (c : Char) : Option Nat :=
  (digitValue? c).bind fun d => if d < base then some (base * n + d) else none

def readDigits (base : Nat) (cs : List Char) : Option Nat :=
  if cs.isEmpty then none else cs.foldlM (pushDigit base) 0

def decimalValue (digits : List Char) : Nat :=
  digits.foldl (fun n c => 10 * n + (c.toNat - 48)) 0

/-- Reads decimal digits onto the end of a number for as long as it may grow: the number, and how
many digits were read besides those counted before. -/
def readWhile (mayGrow : Nat → Nat → Bool) : Nat → Nat → List Char → Nat × Nat
  | n, count, [] => (n, count)
  | n, count, c :: cs =>
    let digit := c.toNat - 48
    if mayGrow n digit then readWhile mayGrow (10 * n + digit) (count + 1) cs else (n, count)

/-- Digits with an optional plus sign. -/
def readUnsigned (base : Nat) : List Char → Option Nat
  | '+' :: cs => readDigits base cs
  | cs => readDigits base cs

/-- Digits with an optional plus or minus sign. -/
def readSigned (base : Nat) : List Char → Option Int
  | '-' :: cs => (readDigits base cs).map fun n => -(n : Int)
  | cs => (readUnsigned base cs).map fun n => (n : Int)

def upperHex (n : Nat) : List Char := (Nat.toDigits 16 n).map Char.toUpper

/-- Hexadecimal digits in upper case, filled up with zeros to a least width. -/
def paddedHex (width n : Nat) : List Char := (upperHex n).leftpad width '0'

def paddedDecimal (width n : Nat) : List Char := (Nat.toDigits 10 n).leftpad width '0'

@[simp] theorem readDigits_nil (base : Nat) : readDigits base [] = none := rfl

example : paddedHex 4 0xAB = ['0', '0', 'A', 'B'] ∧ readSigned 10 ['-', '7'] = some (-7) := by
  decide

end MusicLibrary.Text
