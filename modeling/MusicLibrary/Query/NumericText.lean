import MusicLibrary.BinaryFloat
import MusicLibrary.Text.Numeral

/-! Texts that spell a number. A number column takes such a text for the number when it is compared
with it: digits alone are an exact integer if sixty-four bits hold it, anything else becomes a
double. -/

namespace MusicLibrary.Query

inductive Number where
  | integer (n : Int)
  | real (negative : Bool) (magnitude : BinaryFloat)
  deriving DecidableEq

/-- A decimal number, part by part. -/
structure Decimal where
  negative : Bool
  whole : List Char
  fraction : Option (List Char)
  exponent : Option Int
  deriving DecidableEq

/-- The blanks that may surround a number. -/
def isAsciiBlank (c : Char) : Bool := c = ' ' || (9 ≤ c.toNat && c.toNat ≤ 13)

def splitDigits (cs : List Char) : List Char × List Char :=
  (cs.takeWhile Char.isDigit, cs.dropWhile Char.isDigit)

def splitSign : List Char → Bool × List Char
  | '-' :: cs => (true, cs)
  | '+' :: cs => (false, cs)
  | cs => (false, cs)

/-- The value of the digits of an exponent. From ten thousand on the number is zero or beyond all
doubles, so the exact value no longer counts. -/
def exponentValue (digits : List Char) : Nat :=
  digits.foldl (fun n c => if n < 10000 then 10 * n + (c.toNat - 48) else 10000) 0

/-- The exponent at the end of a number, or nothing at all. -/
def readExponent : List Char → Option (Option Int)
  | [] => some none
  | c :: cs =>
    let (negative, digits) := splitSign cs
    if (c = 'e' ∨ c = 'E') ∧ ¬ digits.isEmpty ∧ digits.all Char.isDigit then
      some (some (if negative then -(exponentValue digits : Int) else exponentValue digits))
    else none

def readDecimal (cs : List Char) : Option Decimal := do
  let (negative, cs) := splitSign cs
  let (whole, cs) := splitDigits cs
  let (fraction, cs) := match cs with
    | '.' :: cs => ((splitDigits cs).map some id)
    | cs => (none, cs)
  if whole.isEmpty && (fraction.getD []).isEmpty then none
  return ⟨negative, whole, fraction, ← readExponent cs⟩

/-- Moves powers of ten into a significand for as long as it fits sixty-four bits: the significand
and the power that is left. -/
def absorbPower : Nat → Nat → Nat × Nat
  | n, 0 => (n, 0)
  | n, power + 1 => if n < UInt64.size / 10 then absorbPower (10 * n) power else (n, power + 1)

/-- Takes zeros off the end of a significand that is divided by a power of ten: the significand and
the power that is left. -/
def cancelPower : Nat → Nat → Nat × Nat
  | n, 0 => (n, 0)
  | n, power + 1 => if n % 10 = 0 then cancelPower (n / 10) power else (n, power + 1)

/-- Multiplies by a power, hundreds first, then tens, then ones; each product is rounded to
sixty-four binary digits. -/
def timesPower (hundred ten one : BinaryFloat) (power : Nat) (x : BinaryFloat) : BinaryFloat :=
  Nat.repeat (.mul 64 one) (power % 10) <|
    Nat.repeat (.mul 64 ten) (power % 100 / 10) <|
      Nat.repeat (.mul 64 hundred) (power / 100) x

def doubleOf (n : Nat) (power : Int) : BinaryFloat :=
  if n = 0 then .ofNat 0
  else if 0 ≤ power then
    let (n, power) := absorbPower n power.toNat
    (timesPower ((BinaryFloat.ofNat (Nat.pow 10 100)).round 64) (.ofNat (Nat.pow 10 10))
      (.ofNat 10) power (.ofNat n)).toDouble
  else
    let (n, power) := cancelPower n (-power).toNat
    (timesPower (.reciprocal 64 (Nat.pow 10 100)) (.reciprocal 64 (Nat.pow 10 10))
      (.reciprocal 64 10) power (.ofNat n)).toDouble

namespace Decimal

/-- The double next to the number without its sign. Digits that no longer fit the significand are
dropped. -/
def magnitude (d : Decimal) : BinaryFloat :=
  let fits := fun n _ => decide (n < (UInt64.size - 10) / 10)
  let (n, taken) := Text.readWhile fits 0 0 d.whole
  let (n, further) := Text.readWhile fits n 0 (d.fraction.getD [])
  doubleOf n (d.exponent.getD 0 + ((d.whole.length : Int) - taken) - further)

def toNumber (d : Decimal) : Number :=
  let n : Int := Text.decimalValue d.whole
  let n := if d.negative then -n else n
  if d.fraction.isNone ∧ d.exponent.isNone ∧
      -9223372036854775808 ≤ n ∧ n ≤ 9223372036854775807 then .integer n
  else .real d.negative d.magnitude

end Decimal

namespace Number

def ofText? (s : String) : Option Number :=
  (readDecimal (((s.toList.dropWhile isAsciiBlank).reverse.dropWhile isAsciiBlank).reverse)).map
    Decimal.toNumber

def orderInt (n : Int) : Number → Ordering
  | .integer m => compare n m
  | .real negative magnitude => magnitude.orderInt n negative

/-- An integer alone is exact; with a point it is the nearest double. -/
example : ofText? " 9007199254740993 " = some (.integer 9007199254740993) ∧
    (ofText? "9007199254740993.0").map (orderInt 9007199254740992) = some .eq := by decide +kernel

example : (ofText? "-1.5e1").map (orderInt (-15)) = some .eq ∧ ofText? "5e" = none := by
  decide +kernel

end Number

end MusicLibrary.Query
