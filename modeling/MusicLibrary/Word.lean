/-! Sixty-four-bit signed words: checked conversion from integers, and arithmetic that stops at
the ends of the range. -/

namespace MusicLibrary

def word64? (n : Int) : Option Int64 :=
  if -9223372036854775808 ≤ n ∧ n ≤ 9223372036854775807 then some (Int64.ofInt n) else none

def clamp64 (n : Int) : Int64 :=
  if n < -9223372036854775808 then Int64.ofInt (-9223372036854775808)
  else if 9223372036854775807 < n then Int64.ofInt 9223372036854775807
  else Int64.ofInt n

/-- The sum, or the end of the range that it lies beyond. -/
def saturatingAdd (a b : Int64) : Int64 := clamp64 (a.toInt + b.toInt)

/-- The difference, or the end of the range that it lies beyond. -/
def saturatingSub (a b : Int64) : Int64 := clamp64 (a.toInt - b.toInt)

/-- The product, or the end of the range that it lies beyond. -/
def saturatingMul (a b : Int64) : Int64 := clamp64 (a.toInt * b.toInt)

@[simp] theorem word64?_toInt (a : Int64) : word64? a.toInt = some a := by
  have low := a.le_toInt
  have high := a.toInt_lt
  simp only [word64?, Int64.ofInt_toInt, ite_eq_left_iff]
  omega

@[simp] theorem clamp64_toInt (a : Int64) : clamp64 a.toInt = a := by
  have low := a.le_toInt
  have high := a.toInt_lt
  simp only [clamp64, Int64.ofInt_toInt]
  split
  · omega
  · split
    · omega
    · rfl

theorem saturatingMul_eq {a b c : Int64} (h : a.toInt * b.toInt = c.toInt) :
    saturatingMul a b = c := by
  rw [saturatingMul, h, clamp64_toInt]

/-! Words of half the width, read as they are, in signed words. -/

@[simp] theorem toInt_widen (n : UInt32) : n.toUInt64.toInt64.toInt = n.toNat := by
  have small := n.toNat_lt
  change n.toUInt64.toBitVec.toInt = n.toNat
  rw [BitVec.toInt_eq_toNat_cond, UInt64.toNat_toBitVec, UInt32.toNat_toUInt64]
  omega

theorem toNat_narrow {v : Int64} (low : 0 ≤ v.toInt) (high : v.toInt < 4294967296) :
    (v.toUInt64.toUInt32.toNat : Int) = v.toInt := by
  have sign : v.toInt = if 2 * v.toUInt64.toNat < 2 ^ 64 then (v.toUInt64.toNat : Int)
    else v.toUInt64.toNat - (2 ^ 64 : Nat) := BitVec.toInt_eq_toNat_cond v.toBitVec
  rw [UInt64.toNat_toUInt32]
  omega

theorem widen_narrow {v : Int64} (low : 0 ≤ v.toInt) (high : v.toInt < 4294967296) :
    v.toUInt64.toUInt32.toUInt64.toInt64 = v := by
  rw [← Int64.toInt_inj, toInt_widen, toNat_narrow low high]

end MusicLibrary
