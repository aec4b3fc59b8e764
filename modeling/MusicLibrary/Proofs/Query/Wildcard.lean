import MusicLibrary.Query.Like

/-! Which texts fit a pattern, told by the pattern alone: each of its characters takes its share of
the text, and the matcher finds such a division whenever there is one. A pattern without wildcards
fits the texts that read like it, in either case of ASCII letters, and no pattern with one does. -/

namespace MusicLibrary.Query

def isWildcard (c : Char) : Bool := c = '%' || c = '_'

/-- A text that a pattern fits: a percent sign takes any part of the text, an underscore takes one
character, and every other character takes itself in either case. -/
inductive Fits : List Char → List Char → Prop
  | nil : Fits [] []
  | any {pattern text back : List Char} (front : List Char) (divided : text = front ++ back)
      (rest : Fits pattern back) : Fits ('%' :: pattern) text
  | one {pattern text : List Char} (c : Char) (rest : Fits pattern text) :
      Fits ('_' :: pattern) (c :: text)
  | letter {pattern text : List Char} {p c : Char} (plain : isWildcard p = false)
      (same : p.toLower = c.toLower) (rest : Fits pattern text) : Fits (p :: pattern) (c :: text)

/-- The matcher goes through the divisions of the text that the pattern allows. -/
theorem likeChars_eq_true_iff {pattern text : List Char} :
    likeChars pattern text = true ↔ Fits pattern text := by
  induction pattern generalizing text with
  | nil =>
    simp only [likeChars, List.isEmpty_iff]
    constructor
    · rintro rfl
      exact .nil
    · rintro ⟨⟩
      rfl
  | cons p pattern ih =>
    by_cases percent : p = '%'
    · subst percent
      simp only [likeChars, ↓reduceIte, anySuffix_iff]
      constructor
      · rintro ⟨back, ⟨front, divided⟩, matched⟩
        exact .any front divided.symm (ih.1 matched)
      · rintro (_ | ⟨front, divided, rest⟩ | _ | ⟨plain⟩)
        · exact ⟨_, ⟨front, divided.symm⟩, ih.2 rest⟩
        · cases plain
    · cases text with
      | nil =>
        simp only [likeChars, if_neg percent]
        constructor
        · intro matched
          cases matched
        · rintro (_ | _)
          exact absurd rfl percent
      | cons c text =>
        simp only [likeChars, if_neg percent]
        rw [Bool.and_eq_true, ih, fitsChar, Bool.or_eq_true, decide_eq_true_iff, beq_iff_eq]
        constructor
        · rintro ⟨underscore | same, rest⟩
          · exact underscore ▸ .one c rest
          · by_cases underscore : p = '_'
            · exact underscore ▸ .one c rest
            · exact .letter (by simp [isWildcard, percent, underscore]) same rest
        · rintro (_ | _ | ⟨_, rest⟩ | ⟨_, same, rest⟩)
          · exact absurd rfl percent
          · exact ⟨.inl rfl, rest⟩
          · exact ⟨.inr same, rest⟩

namespace Fits

/-- A pattern in two parts divides the text in two. -/
theorem append_iff {front back text : List Char} :
    Fits (front ++ back) text ↔ ∃ a b, text = a ++ b ∧ Fits front a ∧ Fits back b := by
  constructor
  · intro fits
    induction front generalizing text with
    | nil => exact ⟨[], text, rfl, .nil, fits⟩
    | cons p front ih =>
      cases fits with
      | any part divided rest =>
        obtain ⟨a, b, rfl, first, second⟩ := ih rest
        exact ⟨part ++ a, b, divided.trans (List.append_assoc ..).symm, .any part rfl first, second⟩
      | one c rest =>
        obtain ⟨a, b, rfl, first, second⟩ := ih rest
        exact ⟨c :: a, b, rfl, .one c first, second⟩
      | letter plain same rest =>
        obtain ⟨a, b, rfl, first, second⟩ := ih rest
        exact ⟨_ :: a, b, rfl, .letter plain same first, second⟩
  · rintro ⟨a, b, rfl, first, second⟩
    induction first with
    | nil => exact second
    | any part divided _ ih =>
      exact .any part (by rw [divided, List.append_assoc]) ih
    | one c _ ih => exact .one c ih
    | letter plain same _ ih => exact .letter plain same ih

/-- A percent sign in front of a pattern leaves it an end of the text. -/
theorem any_iff {pattern text : List Char} :
    Fits ('%' :: pattern) text ↔ ∃ part, part <:+ text ∧ Fits pattern part := by
  constructor
  · rintro (_ | ⟨front, divided, fits⟩ | _ | ⟨plain⟩)
    · exact ⟨_, ⟨front, divided.symm⟩, fits⟩
    · cases plain
  · rintro ⟨part, ⟨front, divided⟩, fits⟩
    exact .any front divided.symm fits

/-- A percent sign behind a pattern leaves it a start of the text. -/
theorem append_any_iff {pattern text : List Char} :
    Fits (pattern ++ ['%']) text ↔ ∃ part, part <+: text ∧ Fits pattern part := by
  rw [append_iff]
  constructor
  · rintro ⟨part, rest, rfl, fits, -⟩
    exact ⟨part, List.prefix_append part rest, fits⟩
  · rintro ⟨part, ⟨rest, rfl⟩, fits⟩
    exact ⟨part, rest, rfl, fits, .any rest (List.append_nil rest).symm .nil⟩

/-- Percent signs on both sides leave a pattern any part of the text. -/
theorem any_append_any_iff {pattern text : List Char} :
    Fits ('%' :: (pattern ++ ['%'])) text ↔ ∃ part, part <:+: text ∧ Fits pattern part := by
  rw [any_iff]
  simp only [append_any_iff]
  constructor
  · rintro ⟨back, ending, part, start, fits⟩
    exact ⟨part, List.infix_iff_prefix_suffix.2 ⟨back, start, ending⟩, fits⟩
  · rintro ⟨part, inside, fits⟩
    obtain ⟨back, start, ending⟩ := List.infix_iff_prefix_suffix.1 inside
    exact ⟨back, ending, part, start, fits⟩

/-- Without wildcards a pattern fits what reads like it. -/
theorem iff_of_plain {pattern text : List Char} (plain : ∀ p ∈ pattern, isWildcard p = false) :
    Fits pattern text ↔ text.map Char.toLower = pattern.map Char.toLower := by
  induction pattern generalizing text with
  | nil =>
    rw [List.map_nil, List.map_eq_nil_iff]
    constructor
    · rintro ⟨⟩
      rfl
    · rintro rfl
      exact .nil
  | cons p pattern ih =>
    rw [List.forall_mem_cons] at plain
    rw [List.map_cons, List.map_eq_cons_iff]
    constructor
    · intro fits
      cases fits with
      | any | one => cases plain.1
      | letter _ same rest => exact ⟨_, _, rfl, same.symm, (ih plain.2).1 rest⟩
    · rintro ⟨c, rest, rfl, same, others⟩
      exact .letter plain.1 same.symm ((ih plain.2).2 others)

end Fits

/-- One character for each underscore, and none for a percent sign. -/
def filled (pattern : List Char) : List Char :=
  (pattern.filter (· ≠ '%')).map fun p => if p = '_' then 'a' else p

theorem fits_filled (pattern : List Char) : Fits pattern (filled pattern) := by
  induction pattern with
  | nil => exact .nil
  | cons p pattern ih =>
    by_cases percent : p = '%'
    · subst percent
      exact .any [] rfl ih
    · rw [filled, List.filter_cons_of_pos (by simpa using percent), List.map_cons]
      by_cases underscore : p = '_'
      · subst underscore
        exact .one 'a' ih
      · rw [if_neg underscore]
        exact .letter (by simp [isWildcard, percent, underscore]) rfl ih

/-- A filled pattern has no wildcards left. -/
theorem of_mem_filled {pattern : List Char} {c : Char} (mem : c ∈ filled pattern) :
    isWildcard c = false ∧ (c = 'a' ∨ c ∈ pattern) := by
  obtain ⟨p, inside, rfl⟩ := List.mem_map.1 mem
  obtain ⟨own, percent⟩ := List.mem_filter.1 inside
  by_cases underscore : p = '_'
  · rw [if_pos underscore]
    exact ⟨by decide, .inl rfl⟩
  · rw [if_neg underscore]
    exact ⟨by simpa [isWildcard, underscore] using percent, .inr own⟩

/-- A wildcard is no letter in another case. -/
theorem isWildcard_of_toLower {c : Char} (h : isWildcard c.toLower = true) :
    isWildcard c = true := by
  unfold Char.toLower at h
  split at h
  · rename_i upper
    -- The small letters come long after the percent sign, and right after the underscore.
    simp only [isWildcard, Bool.or_eq_true, decide_eq_true_iff, Char.ext_iff, Char.reduceVal]
      at h upper
    grind
  · exact h

end MusicLibrary.Query
