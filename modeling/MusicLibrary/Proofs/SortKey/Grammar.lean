import MusicLibrary.Proofs.Text.Trim
import MusicLibrary.SortKey

/-! The grammar of sort keys. Every stage rewrites what the stages before it have left, so the shape
of a key is carried through them: words and single spaces first, then words that are marked where a
number starts, then no space at either end. What the first stages make of a text does not matter. -/

namespace MusicLibrary.SortKey

open Text (isBlank trimChars)

def IsLetter (c : Char) : Prop := 'a' ≤ c ∧ c ≤ 'z'

def IsNumeral (c : Char) : Prop := '0' ≤ c ∧ c ≤ '9'

instance (c : Char) : Decidable (IsLetter c) := inferInstanceAs (Decidable (_ ∧ _))

instance (c : Char) : Decidable (IsNumeral c) := inferInstanceAs (Decidable (_ ∧ _))

section Characters

variable {c : Char}

theorem isKeyChar_iff : isKeyChar c = true ↔ IsLetter c ∨ IsNumeral c := by
  simp [isKeyChar, IsLetter, IsNumeral]

theorem IsLetter.toNat (letter : IsLetter c) : 97 ≤ c.toNat ∧ c.toNat ≤ 122 := letter

theorem IsNumeral.toNat (numeral : IsNumeral c) : 48 ≤ c.toNat ∧ c.toNat ≤ 57 := numeral

theorem IsLetter.not_isNumeral (letter : IsLetter c) : ¬ IsNumeral c := fun numeral => by
  have := letter.toNat
  have := numeral.toNat
  omega

theorem IsLetter.isKeyChar (letter : IsLetter c) : isKeyChar c = true :=
  isKeyChar_iff.2 (.inl letter)

theorem IsNumeral.isKeyChar (numeral : IsNumeral c) : SortKey.isKeyChar c = true :=
  isKeyChar_iff.2 (.inr numeral)

theorem isBlank_of_isKeyChar (h : isKeyChar c = true) : isBlank c = false := by
  rcases isKeyChar_iff.1 h with letter | numeral
  · have := letter.toNat
    simp [isBlank]
    omega
  · have := numeral.toNat
    simp [isBlank]
    omega

theorem ne_space_of_isKeyChar (h : isKeyChar c = true) : c ≠ ' ' := by
  rintro rfl
  cases h

end Characters

/-- Words and single spaces. -/
inductive Spaced : List Char → Prop
  | nil : Spaced []
  | keyChar {c cs} (char : isKeyChar c = true) (rest : Spaced cs) : Spaced (c :: cs)
  | lastSpace : Spaced [' ']
  | space {c cs} (char : isKeyChar c = true) (rest : Spaced (c :: cs)) : Spaced (' ' :: c :: cs)

/-- Letters and digits, with a space in front of some of the letters and a tilde in front of some of
the digits. A space may be left over at the end. -/
inductive Marked : List Char → Prop
  | nil : Marked []
  | keyChar {c cs} (char : isKeyChar c = true) (rest : Marked cs) : Marked (c :: cs)
  | lastSpace : Marked [' ']
  | word {c cs} (letter : IsLetter c) (rest : Marked (c :: cs)) : Marked (' ' :: c :: cs)
  | number {c cs} (numeral : IsNumeral c) (rest : Marked (c :: cs)) : Marked ('~' :: c :: cs)

/-- What a key looks like to those who sort by it. -/
structure IsKey (key : List Char) : Prop where
  marked : Marked key
  first : key.head? ≠ some ' '
  last : key.getLast? ≠ some ' '

variable {c d : Char} {cs front back text key : List Char}

theorem Spaced.tail (h : Spaced (c :: cs)) : Spaced cs := by
  cases h with
  | keyChar _ rest => exact rest
  | lastSpace => exact .nil
  | space _ rest => exact rest

theorem Marked.tail (h : Marked (c :: cs)) : Marked cs := by
  cases h with
  | keyChar _ rest => exact rest
  | lastSpace => exact .nil
  | word _ rest => exact rest
  | number _ rest => exact rest

theorem Marked.behind (h : Marked (front ++ back)) : Marked back := by
  induction front with
  | nil => exact h
  | cons c front ih => exact ih h.tail

/-- A marked text may be cut off in front of anything that is neither a letter nor a digit. -/
theorem Marked.before (h : Marked (front ++ back))
    (cut : ∀ c ∈ back.head?, isKeyChar c = false) : Marked front := by
  induction front with
  | nil => exact .nil
  | cons c front ih =>
    have rest := ih h.tail
    cases front with
    | nil =>
      cases h with
      | keyChar char _ => exact .keyChar char .nil
      | lastSpace => exact .lastSpace
      | word letter _ => exact absurd letter.isKeyChar (by simp [cut _ rfl])
      | number numeral _ => exact absurd numeral.isKeyChar (by simp [cut _ rfl])
    | cons d front =>
      cases h with
      | keyChar char _ => exact .keyChar char rest
      | word letter _ => exact .word letter rest
      | number numeral _ => exact .number numeral rest

theorem separateWords_cons (h : isKeyChar c = true) :
    separateWords (c :: cs) = c :: separateWords cs := by
  cases cs <;> simp [separateWords, h]

theorem markNumbers_cons (h : c ≠ ' ') : markNumbers (c :: cs) = c :: markNumbers cs := by
  cases cs <;> simp [markNumbers, h]

theorem spaced_separateWords (cs : List Char) : Spaced (separateWords cs) := by
  fun_induction separateWords cs with
  | case1 => exact .nil
  | case2 c =>
    split
    · rename_i char
      exact .keyChar char .nil
    · exact .lastSpace
  | case3 c d rest char ih => exact .keyChar char ih
  | case4 c d rest _ char ih =>
    rw [separateWords_cons char] at ih ⊢
    exact .space char ih
  | case5 c d rest _ _ ih => exact ih

theorem spaced_dropArticle (h : Spaced cs) : Spaced (dropArticle cs) := by
  unfold dropArticle
  split
  · exact h.tail
  · exact h.tail.tail
  · exact h.tail.tail.tail
  · exact h

theorem marked_markNumbers (h : Spaced cs) : Marked (markNumbers cs) := by
  induction h with
  | nil => exact .nil
  | keyChar char _ ih =>
    rw [markNumbers_cons (ne_space_of_isKeyChar char)]
    exact .keyChar char ih
  | lastSpace => exact .lastSpace
  | @space c cs char _ ih =>
    rw [markNumbers_cons (ne_space_of_isKeyChar char)] at ih
    rw [markNumbers, markNumbers_cons (ne_space_of_isKeyChar char)]
    rcases isKeyChar_iff.1 char with letter | numeral
    · rw [if_neg fun h => letter.not_isNumeral h.2]
      exact .word letter ih
    · rw [if_pos ⟨rfl, numeral⟩]
      exact .number numeral ih

theorem Marked.mem (h : Marked cs) (mem : c ∈ cs) : isKeyChar c = true ∨ c = '~' ∨ c = ' ' := by
  obtain ⟨front, back, rfl⟩ := List.append_of_mem mem
  cases h.behind with
  | keyChar char _ => exact .inl char
  | lastSpace => exact .inr (.inr rfl)
  | word _ _ => exact .inr (.inr rfl)
  | number _ _ => exact .inr (.inl rfl)

/-- The only blanks of a marked text are spaces. -/
theorem Marked.eq_space (h : Marked cs) (mem : c ∈ cs) (blank : isBlank c = true) : c = ' ' := by
  rcases h.mem mem with char | rfl | rfl
  · rw [isBlank_of_isKeyChar char] at blank
    cases blank
  · cases blank
  · rfl

theorem Marked.behind_space (h : Marked (front ++ ' ' :: d :: back)) : IsLetter d := by
  cases h.behind with
  | keyChar char _ => cases char
  | word letter _ => exact letter

theorem Marked.behind_mark (h : Marked (front ++ '~' :: back)) :
    ∃ d rest, back = d :: rest ∧ IsNumeral d := by
  cases h.behind with
  | keyChar char _ => cases char
  | number numeral _ => exact ⟨_, _, rfl, numeral⟩

theorem collapseBlanks_cons (h : isBlank c = false) :
    collapseBlanks (c :: cs) = c :: collapseBlanks cs := by
  cases cs <;> simp [collapseBlanks, h]

/-- There are no runs of blanks left to collapse. -/
theorem collapseBlanks_of_marked (h : Marked cs) : collapseBlanks cs = cs := by
  induction h with
  | nil => rfl
  | keyChar char _ ih => rw [collapseBlanks_cons (isBlank_of_isKeyChar char), ih]
  | lastSpace => rfl
  | @word c cs letter _ ih =>
    have char := isBlank_of_isKeyChar letter.isKeyChar
    simp only [collapseBlanks, char, ih]
    rfl
  | number _ _ ih => rw [collapseBlanks_cons rfl, ih]

/-- There is no tilde left at the end. -/
theorem dropFinalMarks_of_marked (h : Marked cs) : dropFinalMarks cs = cs := by
  refine List.rdropWhile_eq_self_iff.2 fun nonempty last => ?_
  rw [← List.dropLast_concat_getLast nonempty, eq_of_beq last] at h
  obtain ⟨d, rest, none, _⟩ := h.behind_mark
  cases none

theorem isKey_trimChars (h : Marked cs) : IsKey (trimChars cs) := by
  obtain ⟨front, back, all, -, blanks⟩ := Text.exists_trimChars cs
  refine ⟨?_, fun first => ?_, fun last => ?_⟩
  · rw [all] at h
    refine h.behind.before fun c head => ?_
    by_contra char
    have blank := blanks c (List.mem_of_head? head)
    rw [isBlank_of_isKeyChar (eq_true_of_ne_false char)] at blank
    cases blank
  · cases Text.head?_trimChars first
  · cases Text.getLast?_trimChars last

/-- Of the last three stages, only trimming does anything. -/
theorem ofPlain_eq (text : List Char) : ofPlain text =
    trimChars (markNumbers (dropArticle (separateWords (markLeadingNumber text)))) := by
  have marked := marked_markNumbers
    (spaced_dropArticle (spaced_separateWords (markLeadingNumber text)))
  rw [ofPlain, collapseBlanks_of_marked marked, dropFinalMarks_of_marked marked]

theorem isKey_ofPlain (text : List Char) : IsKey (ofPlain text) := by
  rw [ofPlain_eq]
  exact isKey_trimChars (marked_markNumbers (spaced_dropArticle (spaced_separateWords _)))

theorem IsKey.isBlank_first (h : IsKey key) : ∀ c ∈ key.head?, isBlank c = false := by
  intro c head
  by_contra blank
  have space := h.marked.eq_space (List.mem_of_head? head) (eq_true_of_ne_false blank)
  exact h.first (space ▸ head)

theorem IsKey.isBlank_last (h : IsKey key) : ∀ c ∈ key.getLast?, isBlank c = false := by
  intro c last
  by_contra blank
  have space := h.marked.eq_space (List.mem_of_getLast? last) (eq_true_of_ne_false blank)
  exact h.last (space ▸ last)

theorem IsKey.trimChars_eq (h : IsKey key) : trimChars key = key :=
  Text.trimChars_of_ends h.isBlank_first h.isBlank_last

/-- What a key is made of, told by what may stand next to what. -/
structure IsSpelled (key : List Char) : Prop where
  chars : ∀ c ∈ key, IsLetter c ∨ IsNumeral c ∨ c = '~' ∨ c = ' '
  first : ¬ [' '] <+: key
  last : ¬ [' '] <:+ key
  single : ¬ [' ', ' '] <:+: key
  mark : ∀ front back, key = front ++ '~' :: back → ∃ d rest, back = d :: rest ∧ IsNumeral d
  number : ∀ d, IsNumeral d → ¬ [' ', d] <:+: key

theorem IsKey.isSpelled (h : IsKey key) : IsSpelled key where
  chars c mem := by
    rw [← or_assoc, ← isKeyChar_iff]
    exact h.marked.mem mem
  first := by
    rintro ⟨rest, rfl⟩
    exact h.first rfl
  last := by
    rintro ⟨front, rfl⟩
    exact h.last (List.getLast?_concat ..)
  single := by
    rintro ⟨front, back, rfl⟩
    rw [List.append_assoc] at h
    exact absurd h.marked.behind_space (by decide)
  mark front back all := by
    rw [all] at h
    exact h.marked.behind_mark
  number d numeral := by
    rintro ⟨front, back, rfl⟩
    rw [List.append_assoc] at h
    exact h.marked.behind_space.not_isNumeral numeral

end MusicLibrary.SortKey
