/-! Binary floating-point numbers without a sign and without an upper end of their range. Every
operation is exact in natural numbers and then rounded to nearest, a tie to an even
significand. -/

namespace MusicLibrary

structure BinaryFloat where
  significand : Nat
  exponent : Int
  deriving DecidableEq

namespace BinaryFloat

def bitLength (n : Nat) : Nat := if n = 0 then 0 else n.log2 + 1

/-- A number without some of its last binary digits, rounded to nearest, a tie to even. -/
def dropBits (n count : Nat) : Nat :=
  let kept := n / Nat.pow 2 count
  let lost := 2 * (n % Nat.pow 2 count)
  if Nat.pow 2 count < lost ∨ (lost = Nat.pow 2 count ∧ kept % 2 = 1) then kept + 1 else kept

/-- Ties go to even, anything beyond a tie goes up. -/
example : dropBits 5 1 = 2 ∧ dropBits 7 1 = 4 ∧ dropBits 9 2 = 2 ∧ dropBits 11 2 = 3 := by decide

def ofNat (n : Nat) : BinaryFloat := ⟨n, 0⟩

def shorten (count : Nat) (x : BinaryFloat) : BinaryFloat :=
  ⟨dropBits x.significand count, x.exponent + count⟩

def round (precision : Nat) (x : BinaryFloat) : BinaryFloat :=
  x.shorten (bitLength x.significand - precision)

def mul (precision : Nat) (x y : BinaryFloat) : BinaryFloat :=
  round precision ⟨x.significand * y.significand, x.exponent + y.exponent⟩

/-- One over a number, rounded to a count of binary digits. Two more digits and a last one that
says whether a remainder is left decide the rounding. -/
def reciprocal (precision n : Nat) : BinaryFloat :=
  let shift := bitLength n + precision + 2
  let remainder := if Nat.pow 2 shift % n = 0 then 0 else 1
  round precision ⟨2 * (Nat.pow 2 shift / n) + remainder, -((shift : Int) + 1)⟩

/-- One tenth in four binary digits is thirteen over a hundred and twenty-eight. -/
example : reciprocal 4 10 = ⟨13, -7⟩ := by decide

/-- The nearest double: 53 binary digits, none of them below the least positive double. -/
def toDouble (x : BinaryFloat) : BinaryFloat :=
  x.shorten (max (bitLength x.significand - 53) (-1074 - x.exponent).toNat)

def isFiniteDouble (x : BinaryFloat) : Bool :=
  (bitLength x.significand : Int) + x.exponent ≤ 1024

def orderInt (n : Int) (negative : Bool) (x : BinaryFloat) : Ordering :=
  let signed : Int := if negative then -(x.significand : Int) else x.significand
  if 0 ≤ x.exponent then compare n (signed * Nat.pow 2 x.exponent.toNat)
  else compare (n * Nat.pow 2 (-x.exponent).toNat) signed

end BinaryFloat

end MusicLibrary
