/-! Pattern matching on texts as LIKE defines it: a percent sign stands for any characters, an
underscore for one, and ASCII letters match in either case. Beside the definition stands a search
that gives up early: its time is bounded by the product of the lengths, and it finds the same. -/

namespace MusicLibrary.Query

def anySuffix (holds : List Char → Bool) : List Char → Bool
  | [] => holds []
  | c :: cs => holds (c :: cs) || anySuffix holds cs

def fitsChar (p c : Char) : Bool := p = '_' || p.toLower == c.toLower

def likeChars : List Char → List Char → Bool
  | [], cs => cs.isEmpty
  | p :: pattern, cs =>
    if p = '%' then anySuffix (likeChars pattern) cs
    else match cs with
      | [] => false
      | c :: cs => fitsChar p c && likeChars pattern cs

inductive Found where
  | matched
  | unmatched
  /-- No suffix of the text matches either. -/
  | hopeless
  deriving DecidableEq

/-- The first outcome at a suffix that settles the search; no suffix left is hopeless. -/
def searchSuffixes (search : List Char → Found) : List Char → Found
  | [] => if search [] = .matched then .matched else .hopeless
  | c :: cs =>
    match search (c :: cs) with
    | .unmatched => searchSuffixes search cs
    | found => found

def searchLike : List Char → List Char → Found
  | [], cs => if cs.isEmpty then .matched else .unmatched
  | p :: pattern, cs =>
    if p = '%' then searchSuffixes (searchLike pattern) cs
    else match cs with
      | [] => .hopeless
      | c :: cs => if fitsChar p c then searchLike pattern cs else .unmatched

/-- A character as a pattern sees it: the two noncharacters at the end of the basic plane are
replacement characters. -/
def legible (c : Char) : Char := if c.toNat = 0xFFFE ∨ c.toNat = 0xFFFF then '\ufffd' else c

/-- The characters of a text as a pattern sees them; a zero character ends the text. -/
def legibleChars (s : String) : List Char := (s.toList.takeWhile (· ≠ '\x00')).map legible

def like (pattern text : String) : Bool :=
  searchLike (legibleChars pattern) (legibleChars text) == .matched

theorem anySuffix_iff {holds : List Char → Bool} {cs : List Char} :
    anySuffix holds cs = true ↔ ∃ suffix, suffix <:+ cs ∧ holds suffix = true := by
  induction cs with
  | nil => simp [anySuffix]
  | cons c cs ih =>
    simp only [anySuffix, Bool.or_eq_true, ih, List.suffix_cons_iff]
    constructor
    · rintro (h | ⟨suffix, h, holds⟩)
      · exact ⟨c :: cs, Or.inl rfl, h⟩
      · exact ⟨suffix, Or.inr h, holds⟩
    · rintro ⟨suffix, rfl | h, holds⟩
      · exact Or.inl holds
      · exact Or.inr ⟨suffix, h, holds⟩

@[simp] theorem likeChars_percent (cs : List Char) : likeChars ['%'] cs = true := by
  simp only [likeChars, ↓reduceIte, anySuffix_iff]
  exact ⟨[], List.nil_suffix, rfl⟩

/-- What an outcome says about the text: a match, none here, or none at any suffix. -/
def Found.Sound (found : Found) (pattern cs : List Char) : Prop :=
  match found with
  | .matched => likeChars pattern cs = true
  | .unmatched => likeChars pattern cs = false
  | .hopeless => ∀ suffix, suffix <:+ cs → likeChars pattern suffix = false

/-- If no suffix matches, a percent sign in front does not help, at any suffix. -/
theorem likeChars_percent_of_hopeless {pattern cs : List Char}
    (h : ∀ suffix, suffix <:+ cs → likeChars pattern suffix = false) :
    ∀ suffix, suffix <:+ cs → likeChars ('%' :: pattern) suffix = false := by
  intro suffix inside
  simp only [likeChars, ↓reduceIte, Bool.eq_false_iff, ne_eq, anySuffix_iff]
  rintro ⟨deeper, within, found⟩
  simp [h deeper (within.trans inside)] at found

theorem searchSuffixes_sound {search : List Char → Found} {pattern : List Char}
    (sound : ∀ cs, (search cs).Sound pattern cs) (cs : List Char) :
    (searchSuffixes search cs).Sound ('%' :: pattern) cs ∧
      searchSuffixes search cs ≠ .unmatched := by
  induction cs with
  | nil =>
    have here := sound []
    simp only [searchSuffixes]
    cases found : search [] <;> simp only [found, Found.Sound] at here
    · simpa [Found.Sound, likeChars, anySuffix] using here
    · simpa [Found.Sound, likeChars, anySuffix] using here
    · simpa [Found.Sound, likeChars, anySuffix] using here [] List.nil_suffix
  | cons c cs ih =>
    have here := sound (c :: cs)
    simp only [searchSuffixes]
    cases found : search (c :: cs) <;> simp only [found, Found.Sound] at here
    · exact ⟨by simp [Found.Sound, likeChars, anySuffix, here], by simp⟩
    · obtain ⟨rest, settled⟩ := ih
      refine ⟨?_, settled⟩
      cases later : searchSuffixes search cs
      · rw [later] at rest
        simp only [Found.Sound, likeChars, ↓reduceIte] at rest ⊢
        simp [anySuffix, rest]
      · exact absurd later settled
      · rw [later] at rest
        intro suffix inside
        rcases List.suffix_cons_iff.mp inside with rfl | inside
        · have none := rest cs List.suffix_rfl
          simp only [likeChars, ↓reduceIte] at none ⊢
          simp [anySuffix, none, here]
        · exact rest suffix inside
    · exact ⟨likeChars_percent_of_hopeless here, by simp⟩

theorem searchLike_sound (pattern cs : List Char) :
    (searchLike pattern cs).Sound pattern cs := by
  induction pattern generalizing cs with
  | nil => cases cs <;> simp [searchLike, Found.Sound, likeChars]
  | cons p pattern ih =>
    by_cases percent : p = '%'
    · subst percent
      simpa [searchLike] using (searchSuffixes_sound ih cs).1
    · cases cs with
      | nil =>
        simp only [searchLike, percent, ↓reduceIte, Found.Sound]
        intro suffix inside
        simp [List.suffix_nil.mp inside, likeChars, percent]
      | cons c cs =>
        simp only [searchLike, percent, ↓reduceIte]
        split
        · rename_i fits
          have rest := ih cs
          cases found : searchLike pattern cs <;> rw [found] at rest <;>
            simp only [Found.Sound] at rest ⊢
          · simp [likeChars, percent, fits, rest]
          · simp [likeChars, percent, rest]
          · intro suffix inside
            cases suffix with
            | nil => simp [likeChars, percent]
            | cons d ds =>
              have deeper : ds <:+ cs := by
                rcases List.suffix_cons_iff.mp inside with same | inside
                · exact (List.cons.inj same).2 ▸ List.suffix_rfl
                · exact (List.suffix_cons d ds).trans inside
              simp [likeChars, percent, rest ds deeper]
        · rename_i misses
          simp [Found.Sound, likeChars, percent, misses]

/-- The search finds a match just when the text matches the pattern. -/
theorem like_eq (pattern text : String) :
    like pattern text = likeChars (legibleChars pattern) (legibleChars text) := by
  have sound := searchLike_sound (legibleChars pattern) (legibleChars text)
  simp only [like]
  cases found : searchLike (legibleChars pattern) (legibleChars text) <;> rw [found] at sound <;>
    simp only [Found.Sound] at sound
  · simp [sound]
  · simp [sound]
  · simp [sound _ List.suffix_rfl]

example : likeChars "%b_D".toList "aaBcd".toList = true := by decide

end MusicLibrary.Query
