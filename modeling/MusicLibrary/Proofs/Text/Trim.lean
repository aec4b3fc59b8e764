import Mathlib.Data.List.DropRight
import MusicLibrary.Text.Blank

/-! What trimming leaves: a text without the blanks at its two ends. -/

namespace MusicLibrary.Text

variable {cs : List Char}

theorem trimChars_eq_rdropWhile (cs : List Char) :
    trimChars cs = (cs.dropWhile isBlank).rdropWhile isBlank := rfl

/-- Only blanks are taken away, at either end. -/
theorem exists_trimChars (cs : List Char) : ∃ front back, cs = front ++ (trimChars cs ++ back) ∧
    (∀ c ∈ front, isBlank c = true) ∧ ∀ c ∈ back, isBlank c = true := by
  refine ⟨cs.takeWhile isBlank, (cs.dropWhile isBlank).rtakeWhile isBlank, ?_, ?_, ?_⟩
  · rw [trimChars_eq_rdropWhile, List.rdropWhile_append_rtakeWhile,
      List.takeWhile_append_dropWhile]
  · exact fun c mem => List.mem_takeWhile_imp mem
  · exact fun c mem => List.mem_rtakeWhile_imp mem

theorem trimChars_infix (cs : List Char) : trimChars cs <:+: cs := by
  obtain ⟨front, back, all, -⟩ := exists_trimChars cs
  exact ⟨front, back, by rw [List.append_assoc, ← all]⟩

theorem head?_trimChars {c : Char} (head : (trimChars cs).head? = some c) : isBlank c = false := by
  obtain ⟨back, all⟩ := List.rdropWhile_prefix isBlank (cs.dropWhile isBlank)
  have first := List.head?_dropWhile_not isBlank cs
  rw [← all, List.head?_append, ← trimChars_eq_rdropWhile, head] at first
  simpa using first

theorem getLast?_trimChars {c : Char} (last : (trimChars cs).getLast? = some c) :
    isBlank c = false := by
  have first := List.head?_dropWhile_not isBlank (cs.dropWhile isBlank).reverse
  rw [trimChars, List.getLast?_reverse] at last
  rw [last] at first
  simpa using first

/-- A text that starts with no blank loses blanks at its end only. -/
theorem exists_trimChars_append (first : ∀ c ∈ cs.head?, isBlank c = false) :
    ∃ back, cs = trimChars cs ++ back ∧ ∀ c ∈ back, isBlank c = true := by
  obtain ⟨front, back, all, blanks, ends⟩ := exists_trimChars cs
  cases front with
  | nil => exact ⟨back, all, ends⟩
  | cons c front =>
    have head : c ∈ cs.head? := by
      rw [all]
      rfl
    have blank := blanks c List.mem_cons_self
    rw [first c head] at blank
    cases blank

theorem head?_trimChars_of_head? {c : Char} (head : cs.head? = some c) (ink : isBlank c = false) :
    (trimChars cs).head? = some c := by
  have first : ∀ d ∈ cs.head?, isBlank d = false := by
    intro d mem
    rw [Option.mem_def, head] at mem
    rwa [← Option.some.inj mem]
  obtain ⟨back, all, blanks⟩ := exists_trimChars_append first
  cases trimmed : trimChars cs with
  | nil =>
    rw [trimmed, List.nil_append] at all
    have blank := blanks c (List.mem_of_head? (all ▸ head))
    rw [ink] at blank
    cases blank
  | cons d rest =>
    rw [all, trimmed] at head
    exact head

theorem trimChars_of_ends (first : ∀ c ∈ cs.head?, isBlank c = false)
    (last : ∀ c ∈ cs.getLast?, isBlank c = false) : trimChars cs = cs := by
  obtain ⟨back, all, blanks⟩ := exists_trimChars_append first
  cases ends : back.getLast? with
  | none =>
    rw [List.getLast?_eq_none_iff.1 ends, List.append_nil] at all
    exact all.symm
  | some c =>
    have mem : c ∈ cs.getLast? := by
      rw [all, List.getLast?_append, ends]
      rfl
    have blank := blanks c (List.mem_of_getLast? ends)
    rw [last c mem] at blank
    cases blank

end MusicLibrary.Text
