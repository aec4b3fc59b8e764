import Mathlib.Data.List.Forall2
import Mathlib.Data.List.Induction
import Mathlib.Data.Nat.Digits.Defs
import MusicLibrary.Proofs.Text.Numeral

/-! Which texts are hexadecimal numerals, and what they say. A numeral is read exactly if each of
its characters is a digit, in either case; written to a width it comes back in upper case with zeros
in front. -/

namespace MusicLibrary.Text

/-- A hexadecimal digit of a value, in either case. -/
def IsHexDigit (c : Char) (d : Nat) : Prop :=
  d < 16 ∧ (c = Nat.digitChar d ∨ c = (Nat.digitChar d).toUpper)

instance (c : Char) (d : Nat) : Decidable (IsHexDigit c d) := inferInstanceAs (Decidable (_ ∧ _))

/-- Hexadecimal digits of a number, the highest one first. -/
def SpellsHex (digits : List Char) (n : Nat) : Prop :=
  ∃ values, List.Forall₂ IsHexDigit digits values ∧ n = Nat.ofDigits 16 values.reverse

/-! Single digits. -/

theorem IsHexDigit.digitValue? {c : Char} {d : Nat} (h : IsHexDigit c d) :
    digitValue? c = some d := by
  obtain ⟨small, rfl | rfl⟩ := h
  · have lower : ∀ d < 16, Text.digitValue? (Nat.digitChar d) = some d := by decide
    exact lower d small
  · exact digitValue?_hexDigit small

/-- The characters that have a value are the digits. -/
theorem digitValue?_eq_some_iff {c : Char} {d : Nat} :
    digitValue? c = some d ↔ IsHexDigit c d := by
  refine ⟨fun value => ?_, IsHexDigit.digitValue?⟩
  have ascii : ∀ n < 128, ∀ d ∈ digitValue? (Char.ofNat n), IsHexDigit (Char.ofNat n) d := by
    decide
  have bound {top : Char} (le : c ≤ top) : c.toNat ≤ top.toNat :=
    UInt32.le_iff_toNat_le.1 (Char.le_def.1 le)
  have small : c.toNat < 128 := by
    unfold digitValue? at value
    split at value
    · rename_i range
      exact Nat.lt_of_le_of_lt (bound range.2) (by decide)
    · split at value
      · rename_i range
        exact Nat.lt_of_le_of_lt (bound range.2) (by decide)
      · split at value
        · rename_i range
          exact Nat.lt_of_le_of_lt (bound range.2) (by decide)
        · cases value
  have digit := ascii c.toNat small
  rw [Char.ofNat_toNat] at digit
  exact digit d value

theorem IsHexDigit.toUpper {c : Char} {d : Nat} (h : IsHexDigit c d) : c.toUpper = hexDigit d := by
  obtain ⟨small, rfl | rfl⟩ := h
  · rfl
  · have again : ∀ d < 16, (hexDigit d).toUpper = hexDigit d := by decide
    exact again d small

theorem IsHexDigit.plain {c : Char} {d : Nat} (h : IsHexDigit c d) :
    c ≠ '+' ∧ c.utf8Size = 1 := by
  obtain ⟨small, rfl | rfl⟩ := h
  · have lower : ∀ d < 16, Nat.digitChar d ≠ '+' ∧ (Nat.digitChar d).utf8Size = 1 := by decide
    exact lower d small
  · exact (hexDigit_plain small).2

theorem pushDigit_eq_some_iff {c : Char} {m n : Nat} :
    pushDigit 16 m c = some n ↔ ∃ d, IsHexDigit c d ∧ n = 16 * m + d := by
  simp only [pushDigit, Option.bind_eq_some_iff, digitValue?_eq_some_iff]
  constructor
  · rintro ⟨d, digit, value⟩
    rw [if_pos digit.1, Option.some.injEq] at value
    exact ⟨d, digit, value.symm⟩
  · rintro ⟨d, digit, rfl⟩
    exact ⟨d, digit, if_pos digit.1⟩

/-! Numerals. -/

theorem ofDigits_reverse (values : List Nat) :
    Nat.ofDigits 16 values.reverse = values.foldl (fun n d => 16 * n + d) 0 := by
  simp [Nat.ofDigits_eq_foldr, Nat.add_comm]

theorem foldlM_pushDigit_iff {digits : List Char} {m n : Nat} :
    digits.foldlM (pushDigit 16) m = some n ↔ ∃ values, List.Forall₂ IsHexDigit digits values ∧
      n = values.foldl (fun n d => 16 * n + d) m := by
  induction digits generalizing m with
  | nil => simp [eq_comm]
  | cons c rest ih =>
    simp only [List.foldlM_cons, Option.bind_eq_bind, Option.bind_eq_some_iff,
      pushDigit_eq_some_iff, ih, List.forall₂_cons_left_iff]
    constructor
    · rintro ⟨_, ⟨d, digit, rfl⟩, values, all, rfl⟩
      exact ⟨d :: values, ⟨d, values, digit, all, rfl⟩, rfl⟩
    · rintro ⟨_, ⟨d, values, digit, all, rfl⟩, rfl⟩
      exact ⟨16 * m + d, ⟨d, digit, rfl⟩, values, all, rfl⟩

/-- Digits are read as the number that they spell, and nothing else is read. -/
theorem readDigits_eq_some_iff {digits : List Char} {n : Nat} :
    readDigits 16 digits = some n ↔ digits ≠ [] ∧ SpellsHex digits n := by
  cases digits with
  | nil => simp [readDigits]
  | cons c rest =>
    simp only [readDigits, SpellsHex, ofDigits_reverse, ne_eq, reduceCtorEq, not_false_eq_true,
      true_and]
    exact foldlM_pushDigit_iff

/-- One plus sign may stand in front. -/
theorem readUnsigned_eq_some_iff {cs : List Char} {n : Nat} :
    readUnsigned 16 cs = some n ↔
      ∃ digits, (cs = digits ∨ cs = '+' :: digits) ∧ digits ≠ [] ∧ SpellsHex digits n := by
  have unsigned {digits : List Char} (spells : SpellsHex ('+' :: digits) n) : False := by
    obtain ⟨values, all, -⟩ := spells
    rw [List.forall₂_cons_left_iff] at all
    obtain ⟨d, -, digit, -⟩ := all
    exact digit.plain.1 rfl
  unfold readUnsigned
  split
  · rename_i digits
    rw [readDigits_eq_some_iff]
    constructor
    · exact fun h => ⟨digits, .inr rfl, h⟩
    · rintro ⟨other, rfl | same, nonempty, spells⟩
      · exact (unsigned spells).elim
      · obtain rfl := (List.cons.inj same).2
        exact ⟨nonempty, spells⟩
  · rename_i plain
    rw [readDigits_eq_some_iff]
    constructor
    · exact fun h => ⟨cs, .inl rfl, h⟩
    · rintro ⟨digits, rfl | signed, h⟩
      · exact h
      · exact (plain digits signed).elim

theorem forall_lt_of_spells {digits : List Char} {values : List Nat}
    (all : List.Forall₂ IsHexDigit digits values) : ∀ d ∈ values, d < 16 := by
  induction all with
  | nil => exact fun d mem => absurd mem List.not_mem_nil
  | cons digit all ih => exact List.forall_mem_cons.2 ⟨digit.1, ih⟩

theorem SpellsHex.utf8Size {digits : List Char} {n : Nat} (h : SpellsHex digits n) :
    ∀ c ∈ digits, c.utf8Size = 1 := by
  obtain ⟨values, all, -⟩ := h
  induction all with
  | nil => exact fun c mem => absurd mem List.not_mem_nil
  | cons digit all ih => exact List.forall_mem_cons.2 ⟨digit.plain.2, ih⟩

theorem SpellsHex.lt {digits : List Char} {n : Nat} (h : SpellsHex digits n) :
    n < 16 ^ digits.length := by
  obtain ⟨values, all, rfl⟩ := h
  have bound := Nat.ofDigits_lt_base_pow_length (by decide)
    fun d mem => forall_lt_of_spells all d (List.mem_reverse.1 mem)
  rwa [List.length_reverse, ← all.length_eq] at bound

/-! Writing. -/

/-- A number with one digit more is written with that digit behind it. -/
theorem paddedHex_push {width n d : Nat} (positive : 0 < width) (small : d < 16) :
    paddedHex (width + 1) (16 * n + d) = paddedHex width n ++ [hexDigit d] := by
  have tail : (16 * n + d) / 16 = n ∧ (16 * n + d) % 16 = d := by omega
  rw [paddedHex, paddedHex, upperHex_eq (16 * n + d), tail.1, tail.2]
  rcases Nat.eq_zero_or_pos n with rfl | above
  · obtain ⟨width, rfl⟩ := Nat.exists_eq_succ_of_ne_zero (Nat.ne_of_gt positive)
    have zero : upperHex 0 = ['0'] := rfl
    simp [List.leftpad, zero, small, List.replicate_succ']
  · rw [if_neg (by omega)]
    simp [List.leftpad, Nat.add_sub_add_right]

theorem paddedHex_foldl {values : List Nat} {width : Nat} (nonempty : values ≠ [])
    (small : ∀ d ∈ values, d < 16) (fits : values.length ≤ width) :
    paddedHex width (values.foldl (fun n d => 16 * n + d) 0) =
      (values.map hexDigit).leftpad width '0' := by
  induction values using List.reverseRecOn generalizing width with
  | nil => exact absurd rfl nonempty
  | append_singleton front d ih =>
    have digit := small d (by simp)
    rw [List.foldl_concat, List.map_append, List.map_singleton]
    cases front with
    | nil =>
      rw [List.foldl_nil, Nat.mul_zero, Nat.zero_add, paddedHex, upperHex_eq, if_pos digit,
        Nat.mod_eq_of_lt digit]
      rfl
    | cons first rest =>
      have room : (first :: rest).length + 1 ≤ width := by simpa using fits
      obtain ⟨width, rfl⟩ := Nat.exists_eq_add_of_lt (Nat.lt_of_lt_of_le (Nat.succ_pos _) room)
      rw [Nat.zero_add] at room ⊢
      rw [paddedHex_push (by simp at room; omega) digit,
        ih (by simp) (fun d mem => small d (List.mem_append_left _ mem)) (by omega)]
      simp [List.leftpad, Nat.add_sub_add_right]

/-- A numeral is written in upper case, with zeros in front of it. -/
theorem SpellsHex.paddedHex {digits : List Char} {n width : Nat} (h : SpellsHex digits n)
    (nonempty : digits ≠ []) (fits : digits.length ≤ width) :
    paddedHex width n = (digits.map Char.toUpper).leftpad width '0' := by
  obtain ⟨values, all, rfl⟩ := h
  have length := all.length_eq
  have upper : digits.map Char.toUpper = values.map hexDigit := by
    clear nonempty fits length
    induction all with
    | nil => rfl
    | cons digit all ih => rw [List.map_cons, List.map_cons, digit.toUpper, ih]
  rw [ofDigits_reverse, upper]
  apply paddedHex_foldl
  · rintro rfl
    exact nonempty (List.length_eq_zero_iff.1 length)
  · exact forall_lt_of_spells all
  · omega

end MusicLibrary.Text
