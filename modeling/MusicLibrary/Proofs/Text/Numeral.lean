import Mathlib.Algebra.Group.Nat.Defs
import MusicLibrary.Text.Blank
import MusicLibrary.Text.Numeral

/-! Hexadecimal numerals read back. Leading zeros do not count, and none of the digits is a blank or
takes more than one byte. -/

namespace MusicLibrary.Text

def hexDigit (d : Nat) : Char := (Nat.digitChar d).toUpper

theorem digitValue?_hexDigit {d : Nat} (h : d < 16) : digitValue? (hexDigit d) = some d := by
  have all : ∀ d < 16, digitValue? (hexDigit d) = some d := by decide
  exact all d h

theorem hexDigit_plain {d : Nat} (h : d < 16) :
    isBlank (hexDigit d) = false ∧ hexDigit d ≠ '+' ∧ (hexDigit d).utf8Size = 1 := by
  have all : ∀ d < 16,
      isBlank (hexDigit d) = false ∧ hexDigit d ≠ '+' ∧ (hexDigit d).utf8Size = 1 := by decide
  exact all d h

theorem pushDigit_hexDigit (n : Nat) {d : Nat} (h : d < 16) :
    pushDigit 16 n (hexDigit d) = some (16 * n + d) := by
  rw [pushDigit, digitValue?_hexDigit h, Option.bind_some, if_pos h]

/-- All digits of a number but the last one are those of its sixteenth. -/
theorem upperHex_eq (n : Nat) :
    upperHex n = (if n < 16 then [] else upperHex (n / 16)) ++ [hexDigit (n % 16)] := by
  unfold upperHex
  split
  · rename_i small
    rw [Nat.toDigits_of_lt_base small, Nat.mod_eq_of_lt small]
    rfl
  · rename_i large
    rw [Nat.toDigits_of_base_le (by decide) (Nat.le_of_not_lt large), List.map_append]
    rfl

theorem mem_upperHex {n : Nat} {c : Char} (h : c ∈ upperHex n) : ∃ d < 16, c = hexDigit d := by
  induction n using Nat.strongRecOn with
  | ind n ih =>
    rw [upperHex_eq, List.mem_append, List.mem_singleton] at h
    rcases h with front | rfl
    · split at front
      · cases front
      · exact ih (n / 16) (by omega) front
    · exact ⟨n % 16, Nat.mod_lt n (by decide), rfl⟩

theorem foldlM_upperHex (n : Nat) : (upperHex n).foldlM (pushDigit 16) 0 = some n := by
  induction n using Nat.strongRecOn with
  | ind n ih =>
    have last (front : Nat) : pushDigit 16 front (hexDigit (n % 16)) =
        some (16 * front + n % 16) := pushDigit_hexDigit front (Nat.mod_lt n (by decide))
    rw [upperHex_eq, List.foldlM_append]
    split
    · simp [last]
      omega
    · rw [ih (n / 16) (by omega)]
      simp [last]
      omega

theorem mem_paddedHex {width n : Nat} {c : Char} (h : c ∈ paddedHex width n) :
    ∃ d < 16, c = hexDigit d := by
  rw [paddedHex, List.leftpad, List.mem_append] at h
  rcases h with zero | digit
  · exact ⟨0, by decide, List.eq_of_mem_replicate zero⟩
  · exact mem_upperHex digit

theorem foldlM_zeros (count : Nat) :
    (List.replicate count '0').foldlM (pushDigit 16) 0 = some 0 := by
  induction count with
  | zero => rfl
  | succ count ih =>
    rw [List.replicate_succ, List.foldlM_cons]
    exact ih

/-- A number is read from its hexadecimal digits, however many zeros are in front. -/
theorem readUnsigned_paddedHex (width n : Nat) : readUnsigned 16 (paddedHex width n) = some n := by
  have value : (paddedHex width n).foldlM (pushDigit 16) 0 = some n := by
    rw [paddedHex, List.leftpad, List.foldlM_append, foldlM_zeros]
    exact foldlM_upperHex n
  cases digits : paddedHex width n with
  | nil =>
    rw [paddedHex, List.leftpad, upperHex_eq] at digits
    simp at digits
  | cons c cs =>
    have mem : c ∈ paddedHex width n := digits ▸ List.mem_cons_self
    obtain ⟨d, lt, rfl⟩ := mem_paddedHex mem
    rw [digits] at value
    unfold readUnsigned
    split
    · rename_i plus
      exact absurd (List.cons.inj plus).1 (hexDigit_plain lt).2.1
    · exact value

theorem length_paddedHex {width n : Nat} (positive : 0 < width) (h : n < 16 ^ width) :
    (paddedHex width n).length = width := by
  have short : (upperHex n).length ≤ width := by
    rw [upperHex, List.length_map]
    exact (Nat.length_toDigits_le_iff (by decide) positive).2 h
  rw [paddedHex, List.leftpad, List.length_append, List.length_replicate]
  omega

theorem trimChars_eq_self {cs : List Char} (h : ∀ c ∈ cs, isBlank c = false) :
    trimChars cs = cs := by
  have stays (cs : List Char) (h : ∀ c ∈ cs, isBlank c = false) : cs.dropWhile isBlank = cs := by
    cases cs with
    | nil => rfl
    | cons c rest => rw [List.dropWhile_cons_of_neg (by simp [h c])]
  rw [trimChars, stays cs h, stays cs.reverse (by simpa using h), List.reverse_reverse]

theorem utf8ByteSize_ofList {cs : List Char} (h : ∀ c ∈ cs, c.utf8Size = 1) :
    (String.ofList cs).utf8ByteSize = cs.length := by
  induction cs with
  | nil => rfl
  | cons c cs ih =>
    rw [String.ofList_cons, String.utf8ByteSize_append, String.utf8ByteSize_singleton,
      h c List.mem_cons_self, ih fun d mem => h d (List.mem_cons_of_mem c mem), List.length_cons]
    omega

end MusicLibrary.Text
