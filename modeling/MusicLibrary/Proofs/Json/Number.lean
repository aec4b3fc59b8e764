import Mathlib.Algebra.Group.Nat.Defs
import Mathlib.Data.List.TakeWhile
import MusicLibrary.Json.Printer

/-! Integers in JSON text. Their digits spell them, and no integer of sixty-four bits lies beyond
the doubles, so what is written of one is the token of the same one. -/

namespace MusicLibrary

namespace Text

theorem decimalValue_toDigits (n : Nat) : decimalValue (Nat.toDigits 10 n) = n :=
  Nat.ofDigitChars_toDigits (by decide) (by decide)

/-- The digits of a number; a leading zero is all of them. -/
theorem toDigits_eq_cons (n : Nat) :
    ∃ d ds, Nat.toDigits 10 n = d :: ds ∧ (d = '0' → ds = [] ∧ n = 0) := by
  induction n using Nat.strongRecOn with
  | ind n ih =>
    rcases Nat.lt_or_ge n 10 with small | large
    · refine ⟨n.digitChar, [], Nat.toDigits_of_lt_base small, fun zero => ⟨rfl, ?_⟩⟩
      have all : ∀ n < 10, n.digitChar = '0' → n = 0 := by decide
      exact all n small zero
    · obtain ⟨d, ds, digits, lead⟩ := ih (n / 10) (by omega)
      refine ⟨d, ds ++ [(n % 10).digitChar], ?_, fun zero => ?_⟩
      · rw [Nat.toDigits_of_base_le (by decide) large, digits, List.cons_append]
      · have none := (lead zero).2
        omega

theorem le_ofDigitChars (n : Nat) (digits : List Char) : n ≤ Nat.ofDigitChars 10 digits n := by
  induction digits generalizing n with
  | nil => exact Nat.le_refl n
  | cons c rest ih =>
    have step := ih (10 * n + (c.toNat - '0'.toNat))
    rw [Nat.ofDigitChars_cons]
    omega

/-- Digits are all read if what they come to is within the bound. -/
theorem readWhile_eq {bound : Nat} (n count : Nat) (digits : List Char)
    (small : Nat.ofDigitChars 10 digits n < bound) :
    readWhile (fun n digit => decide (10 * n + digit < bound)) n count digits =
      (Nat.ofDigitChars 10 digits n, count + digits.length) := by
  induction digits generalizing n count with
  | nil => rfl
  | cons c rest ih =>
    rw [Nat.ofDigitChars_cons] at small ⊢
    have grows : 10 * n + (c.toNat - '0'.toNat) < bound :=
      Nat.lt_of_le_of_lt (le_ofDigitChars _ rest) small
    have step : readWhile (fun n digit => decide (10 * n + digit < bound)) n count (c :: rest) =
        readWhile (fun n digit => decide (10 * n + digit < bound))
          (10 * n + (c.toNat - '0'.toNat)) (count + 1) rest := if_pos (decide_eq_true grows)
    rw [step, ih _ _ small, List.length_cons, Nat.add_assoc, Nat.add_comm 1]

end Text

namespace BinaryFloat

theorem bitLength_le {n count : Nat} (h : n < 2 ^ count) : bitLength n ≤ count := by
  rw [bitLength]
  split
  · exact Nat.zero_le count
  · rename_i positive
    exact (Nat.log2_lt positive).2 h

theorem dropBits_le (n count : Nat) : dropBits n count ≤ n + 1 := by
  have le := Nat.div_le_self n (Nat.pow 2 count)
  simp only [dropBits]
  split
  · exact Nat.succ_le_succ le
  · exact Nat.le_succ_of_le le

/-- Rounding makes a significand larger by one at most, and takes no more digits off it than it
has. -/
theorem round_bounds (precision : Nat) {count : Nat} {x : BinaryFloat}
    (h : x.significand < 2 ^ count) :
    (round precision x).significand ≤ x.significand + 1 ∧
      (round precision x).exponent ≤ x.exponent + count := by
  refine ⟨dropBits_le _ _, ?_⟩
  have length := bitLength_le h
  change x.exponent + ((bitLength x.significand - precision : Nat) : Int) ≤ _
  omega

end BinaryFloat

namespace Json

open BinaryFloat

/-- A product of two rounded numbers of sixty-four bits is far from the end of the doubles. -/
theorem isFiniteDouble_mul_round {m n : Nat} (hm : m < 2 ^ 64) (hn : n < 2 ^ 64) :
    (mul 53 (round 53 (ofNat m)) (round 53 (ofNat n))).isFiniteDouble = true := by
  obtain ⟨left, leftShift⟩ := round_bounds 53 (x := ofNat m) hm
  obtain ⟨right, rightShift⟩ := round_bounds 53 (x := ofNat n) hn
  generalize round 53 (ofNat m) = x at left leftShift
  generalize round 53 (ofNat n) = y at right rightShift
  change x.significand ≤ m + 1 at left
  change y.significand ≤ n + 1 at right
  have product : x.significand * y.significand < 2 ^ 129 := by
    have le : x.significand * y.significand ≤ 2 ^ 64 * 2 ^ 64 :=
      Nat.mul_le_mul (by omega) (by omega)
    omega
  obtain ⟨significand, shift⟩ := round_bounds 53
    (x := ⟨x.significand * y.significand, x.exponent + y.exponent⟩) product
  have short : (mul 53 x y).significand < 2 ^ 130 := by
    change (mul 53 x y).significand ≤ x.significand * y.significand + 1 at significand
    omega
  have length := bitLength_le short
  change (mul 53 x y).exponent ≤ x.exponent + y.exponent + 129 at shift
  change x.exponent ≤ 0 + 64 at leftShift
  change y.exponent ≤ 0 + 64 at rightShift
  rw [isFiniteDouble, decide_eq_true_eq]
  omega

theorem exceedsDouble_toDigits {n : Nat} (h : n < 2 ^ 64) :
    exceedsDouble (Nat.toDigits 10 n) [] 0 = false := by
  have value : Nat.ofDigitChars 10 (Nat.toDigits 10 n) 0 = n :=
    Nat.ofDigitChars_toDigits (by decide) (by decide)
  have small : Nat.ofDigitChars 10 (Nat.toDigits 10 n) 0 < UInt64.size := by
    rw [value]
    exact h
  have read := Text.readWhile_eq 0 0 (Nat.toDigits 10 n) small
  rw [value, Nat.zero_add] at read
  have finite := isFiniteDouble_mul_round h (n := 1) (by decide)
  simp [exceedsDouble, read, Text.readWhile, finite]

/-- The digits of a number are the token of it, with a sign unless it is zero. -/
theorem numberToken_toDigits (negative : Bool) {n : Nat} (h : n < 2 ^ 64)
    (signed : negative = true → n ≠ 0) :
    numberToken negative (Nat.toDigits 10 n) = .integer (if negative then -(n : Int) else n) := by
  have digit : ∀ c ∈ Nat.toDigits 10 n, c.isDigit = true := fun c mem =>
    Nat.isDigit_of_mem_toDigits (by decide) (by decide) mem
  have whole : (Nat.toDigits 10 n).takeWhile Char.isDigit = Nat.toDigits 10 n :=
    List.takeWhile_eq_self_iff.2 digit
  have rest : (Nat.toDigits 10 n).dropWhile Char.isDigit = [] :=
    List.dropWhile_eq_nil_iff.2 digit
  have mark : (Nat.toDigits 10 n).dropWhile (fun c => c ≠ 'e' ∧ c ≠ 'E') = [] := by
    apply List.dropWhile_eq_nil_iff.2
    intro c mem
    rw [decide_eq_true_eq]
    constructor
    · rintro rfl
      exact absurd (digit _ mem) (by decide)
    · rintro rfl
      exact absurd (digit _ mem) (by decide)
  have plain : (negative && Nat.toDigits 10 n == ['0']) = false := by
    cases negative with
    | false => rfl
    | true =>
      rw [Bool.true_and, beq_eq_false_iff_ne]
      intro zero
      have value := Text.decimalValue_toDigits n
      rw [zero] at value
      exact signed rfl value.symm
  rw [numberToken]
  simp only [whole, rest, mark, plain, List.head?_nil, List.tail_nil, List.filter_nil,
    Text.decimalValue_toDigits, List.isEmpty_nil]
  simp [Text.decimalValue, exceedsDouble_toDigits h]

/-- What is written of an integer is the token of it. -/
theorem numberTokenOfSeen_integerChars {n : Int} (h : n.natAbs < 2 ^ 64) :
    numberTokenOfSeen (integerChars n).reverse = .integer n := by
  rw [numberTokenOfSeen, List.reverse_reverse, integerChars]
  by_cases negative : n < 0
  · rw [if_pos negative]
    have token := numberToken_toDigits true h (fun _ => by omega)
    have value : (-(n.natAbs : Int)) = n := by omega
    rw [if_pos rfl, value] at token
    exact token
  · rw [if_neg negative]
    have token := numberToken_toDigits false h (fun none => by cases none)
    have value : (n.natAbs : Int) = n := by omega
    rw [if_neg (by decide), value] at token
    split
    · rename_i literal minus
      have digit : '-'.isDigit = true := by
        apply Nat.isDigit_of_mem_toDigits (b := 10) (n := n.natAbs) (by decide) (by decide)
        rw [minus]
        exact List.mem_cons_self
      exact absurd digit (by decide)
    · exact token

end Json

end MusicLibrary
