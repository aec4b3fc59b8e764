import MusicLibrary.Proofs.SortKey.Featured

/-! Keys that are made of keys. The stages take a key for any other text: an article that has come to
stand at its start is dropped, and a number that it starts with is marked. Every other key stays as it
is. -/

namespace MusicLibrary.SortKey

open Text (trimChars)

variable {c : Char} {cs key digits rest : List Char}

/-! A key is plain: it is in lower case, and all its characters are ASCII. -/

theorem Marked.toNat_cases (h : Marked cs) (mem : c ∈ cs) : c.toNat = 32 ∨ c.toNat = 126 ∨
    48 ≤ c.toNat ∧ c.toNat ≤ 57 ∨ 97 ≤ c.toNat ∧ c.toNat ≤ 122 := by
  rcases h.mem mem with char | rfl | rfl
  · rcases isKeyChar_iff.1 char with letter | numeral
    · exact .inr (.inr (.inr letter.toNat))
    · exact .inr (.inr (.inl numeral.toNat))
  · exact .inr (.inl rfl)
  · exact .inl rfl

theorem plain_of_marked (h : Marked cs) : plain cs = cs := by
  have each : ∀ c ∈ cs, (if Text.isMark c then none else some (Text.baseLetter c).toLower) =
      some c := by
    intro c mem
    have cases := h.toNat_cases mem
    have ascii : c.toNat < 0x80 := by omega
    have lower : c.toLower = c := by
      refine dif_neg ?_
      rintro ⟨low, high⟩
      have low : 65 ≤ c.toNat := low
      have high : c.toNat ≤ 90 := high
      omega
    simp [Text.isMark_eq_false_of_ascii ascii, Text.baseLetter_of_ascii ascii, lower]
  rw [plain, List.filterMap_congr each, List.filterMap_some]

/-! Its words fall apart at the marks, and the marks are put back. -/

def wordChar (c : Char) : Char := if isKeyChar c then c else ' '

theorem wordChar_of_isKeyChar (h : isKeyChar c = true) : wordChar c = c := if_pos h

theorem separateWords_of_marked (h : Marked cs) : separateWords cs = cs.map wordChar := by
  induction h with
  | nil => rfl
  | keyChar char _ ih => simp [separateWords_cons char, ih, wordChar_of_isKeyChar char]
  | lastSpace => rfl
  | word letter _ ih =>
    simp only [separateWords, letter.isKeyChar, ih, List.map_cons]
    rfl
  | number numeral _ ih =>
    simp only [separateWords, numeral.isKeyChar, ih, List.map_cons]
    rfl

theorem markNumbers_separateWords (h : Marked cs) : markNumbers (separateWords cs) = cs := by
  rw [separateWords_of_marked h]
  induction h with
  | nil => rfl
  | keyChar char _ ih =>
    rw [List.map_cons, wordChar_of_isKeyChar char, markNumbers_cons (ne_space_of_isKeyChar char), ih]
  | lastSpace => rfl
  | @word c cs letter _ ih =>
    have first := wordChar_of_isKeyChar letter.isKeyChar
    rw [List.map_cons, first] at ih
    simp only [List.map_cons, first, markNumbers, ih]
    exact congrArg (· :: c :: cs) (if_neg fun h => letter.not_isNumeral h.2)
  | @number c cs numeral _ ih =>
    have first := wordChar_of_isKeyChar numeral.isKeyChar
    rw [List.map_cons, first] at ih
    simp only [List.map_cons, first, markNumbers, ih]
    exact congrArg (· :: c :: cs) (if_pos ⟨rfl, numeral⟩)

/-! A number at its start is marked if it is not too large. -/

theorem isDecimalDigit_of_ascii (h : c.toNat < 0x80) :
    Text.isDecimalDigit c = decide (IsNumeral c) := by
  have others : ∀ range ∈ Text.decimalDigitRanges.tail, 0x80 ≤ range.1 := by decide
  have first : Text.decimalDigitRanges = (0x30, 0x39) :: Text.decimalDigitRanges.tail := rfl
  have none : (Text.decimalDigitRanges.tail.any fun range =>
      decide (range.1 ≤ c.toNat) && decide (c.toNat ≤ range.2)) = false := by
    refine List.any_eq_false.2 fun range mem => ?_
    have := others range mem
    simp
    omega
  rw [Text.isDecimalDigit, first, List.any_cons, none, Bool.or_false, ← Bool.decide_and]
  rfl

theorem pushDigit_of_isNumeral (n : Nat) (numeral : IsNumeral c) :
    Text.pushDigit 10 n c = some (10 * n + (c.toNat - 48)) := by
  have := numeral.toNat
  have value : Text.digitValue? c = some (c.toNat - 48) := if_pos numeral
  rw [Text.pushDigit, value, Option.bind_some, if_pos (by omega)]

theorem readDigits_eq (nonempty : digits ≠ []) (numerals : ∀ c ∈ digits, IsNumeral c) :
    Text.readDigits 10 digits = some (Text.decimalValue digits) := by
  have read : ∀ n, digits.foldlM (Text.pushDigit 10) n =
      some (digits.foldl (fun n c => 10 * n + (c.toNat - 48)) n) := by
    clear nonempty
    induction digits with
    | nil => exact fun n => rfl
    | cons c digits ih =>
      intro n
      have step := pushDigit_of_isNumeral n (numerals c List.mem_cons_self)
      rw [List.foldlM_cons, step, List.foldl_cons]
      exact ih (fun d mem => numerals d (List.mem_cons_of_mem c mem)) _
  rw [Text.readDigits, if_neg (by simpa using nonempty), read 0]
  rfl

theorem readSigned_of_numerals (nonempty : digits ≠ []) (numerals : ∀ c ∈ digits, IsNumeral c) :
    Text.readSigned 10 digits = some (Text.decimalValue digits : Int) := by
  have unsigned (sign : Char) (other : ¬ IsNumeral sign) : ∀ more, digits ≠ sign :: more := by
    rintro more rfl
    exact other (numerals _ List.mem_cons_self)
  unfold Text.readSigned
  split
  · exact absurd rfl (unsigned '-' (by decide) _)
  · unfold Text.readUnsigned
    split
    · exact absurd rfl (unsigned '+' (by decide) _)
    · rw [readDigits_eq nonempty numerals]
      rfl

/-- Of digits alone, the canonical form is a mark and at least six digits, unless the number is too
large. -/
theorem canonicalNumber_of_numerals (nonempty : digits ≠ []) (numerals : ∀ c ∈ digits, IsNumeral c) :
    canonicalNumber digits = if Text.decimalValue digits ≤ 9223372036854775807
      then '~' :: Text.paddedDecimal 6 (Text.decimalValue digits) else digits := by
  have commas : digits.filter (· ≠ ',') = digits := by
    refine List.filter_eq_self.2 fun d mem => decide_eq_true ?_
    rintro rfl
    exact absurd (numerals _ mem) (by decide)
  rw [canonicalNumber, commas, readSigned_of_numerals nonempty numerals, Option.bind_some, word64?]
  by_cases fits : Text.decimalValue digits ≤ 9223372036854775807
  · have value : (Int64.ofInt (Text.decimalValue digits)).toInt = Text.decimalValue digits :=
      Int64.toInt_ofInt_of_le (by omega) (by omega)
    rw [if_pos fits, if_pos (by omega)]
    simp only [value, Int.natAbs_natCast]
  · rw [if_neg fits, if_neg (by omega)]

theorem exists_paddedDecimal (n : Nat) :
    ∃ c cs, Text.paddedDecimal 6 n = c :: cs ∧ ∀ d ∈ c :: cs, IsNumeral d := by
  have numerals : ∀ d ∈ Text.paddedDecimal 6 n, IsNumeral d := by
    intro d mem
    rw [Text.paddedDecimal, List.leftpad, List.mem_append] at mem
    rcases mem with zero | digit
    · rw [List.eq_of_mem_replicate zero]
      decide
    · have digit := Nat.isDigit_of_mem_toDigits (by decide) (by decide) digit
      rw [Char.isDigit, Bool.and_eq_true, decide_eq_true_iff, decide_eq_true_iff] at digit
      exact digit
  cases digits : Text.paddedDecimal 6 n with
  | nil =>
    have none := congrArg List.length digits
    rw [Text.paddedDecimal, List.length_leftpad] at none
    simp at none
  | cons c cs => exact ⟨c, cs, rfl, digits ▸ numerals⟩

theorem IsNumeral.isDecimalDigit (numeral : IsNumeral c) : Text.isDecimalDigit c = true := by
  have := numeral.toNat
  rw [isDecimalDigit_of_ascii (by omega)]
  exact decide_eq_true numeral

theorem markLeadingNumber_append (marked : Marked (digits ++ rest)) (nonempty : digits ≠ [])
    (numerals : ∀ c ∈ digits, IsNumeral c) (whole : ∀ c ∈ rest.head?, ¬ IsNumeral c) :
    markLeadingNumber (digits ++ rest) = canonicalNumber digits ++ rest := by
  obtain ⟨c, more, rfl⟩ := List.exists_cons_of_ne_nil nonempty
  have inside : ∀ d ∈ more, (Text.isDecimalDigit d || d == ',') = true := fun d mem => by
    rw [(numerals d (List.mem_cons_of_mem c mem)).isDecimalDigit, Bool.true_or]
  have stop : ∀ d ∈ rest.head?, ¬ (Text.isDecimalDigit d || d == ',') = true := by
    intro d head
    have mem : d ∈ c :: more ++ rest := List.mem_append_right _ (List.mem_of_head? head)
    have cases := marked.toNat_cases mem
    have ne : d ≠ ',' := by
      rintro rfl
      revert cases
      decide
    rw [isDecimalDigit_of_ascii (by omega)]
    simpa using ⟨whole d head, ne⟩
  have behind : (rest.takeWhile fun d => Text.isDecimalDigit d || d == ',') = [] ∧
      (rest.dropWhile fun d => Text.isDecimalDigit d || d == ',') = rest := by
    cases rest with
    | nil => exact ⟨rfl, rfl⟩
    | cons d rest =>
      exact ⟨List.takeWhile_cons_of_neg (stop d rfl), List.dropWhile_cons_of_neg (stop d rfl)⟩
  have first := (numerals c List.mem_cons_self).isDecimalDigit
  simp only [List.cons_append, markLeadingNumber, first, if_true,
    List.takeWhile_append_of_pos inside, List.dropWhile_append_of_pos inside, behind,
    List.append_nil]

theorem markLeadingNumber_of_head (marked : Marked key) (first : ∀ c ∈ key.head?, ¬ IsNumeral c) :
    markLeadingNumber key = key := by
  cases key with
  | nil => rfl
  | cons c rest =>
    have cases := marked.toNat_cases (List.mem_cons_self (a := c))
    rw [markLeadingNumber, isDecimalDigit_of_ascii (by omega), if_neg (by simpa using first c rfl)]

/-- The words that are dropped at the start of a key. -/
def articles : List (List Char) := ["a".toList, "an".toList, "the".toList]

/-- A key that is not the key of itself: an article stands at its start and something behind it, or a
number that is not marked and not too large. -/
inductive Unsettled : List Char → Prop
  | article {word rest : List Char} {mark : Char} (mem : word ∈ articles)
    (ends : mark = ' ' ∨ mark = '~') : Unsettled (word ++ mark :: rest)
  | number {digits rest : List Char} (nonempty : digits ≠ []) (numerals : ∀ c ∈ digits, IsNumeral c)
    (whole : ∀ c ∈ rest.head?, ¬ IsNumeral c)
    (fits : Text.decimalValue digits ≤ 9223372036854775807) : Unsettled (digits ++ rest)

theorem dropArticle_append {word : List Char} (mem : word ∈ articles) :
    dropArticle (word ++ ' ' :: rest) = ' ' :: rest := by
  simp only [articles, List.mem_cons, List.not_mem_nil, or_false] at mem
  rcases mem with rfl | rfl | rfl
  all_goals rfl

theorem dropArticle_cases (cs : List Char) :
    dropArticle cs = cs ∨ ∃ word ∈ articles, ∃ rest, cs = word ++ ' ' :: rest := by
  unfold dropArticle
  split
  · exact .inr ⟨"a".toList, by decide, _, rfl⟩
  · exact .inr ⟨"an".toList, by decide, _, rfl⟩
  · exact .inr ⟨"the".toList, by decide, _, rfl⟩
  · exact .inl rfl

theorem isLetter_of_mem_article {word : List Char} (mem : word ∈ articles) :
    ∀ c ∈ word, IsLetter c := by
  have all : (articles.all fun word => word.all (IsLetter ·)) = true := by decide
  simpa using List.all_eq_true.1 all word mem

/-- What an article stands in front of is left, with the mark between them. -/
theorem ofPlain_article {word : List Char} {mark : Char} (marked : Marked (word ++ mark :: rest))
    (mem : word ∈ articles) (ends : mark = ' ' ∨ mark = '~') :
    ofPlain (word ++ mark :: rest) = trimChars (mark :: rest) := by
  have letters := isLetter_of_mem_article mem
  have first : ∀ c ∈ (word ++ mark :: rest).head?, ¬ IsNumeral c := by
    intro c head
    cases word with
    | nil => exact absurd mem (by decide)
    | cons d word =>
      cases head
      exact (letters c List.mem_cons_self).not_isNumeral
  have words : word.map wordChar = word := by
    rw [List.map_congr_left fun c mem => wordChar_of_isKeyChar (letters c mem).isKeyChar,
      List.map_id']
  have space : wordChar mark = ' ' := by
    rcases ends with rfl | rfl
    all_goals rfl
  have behind : Marked (mark :: rest) := marked.behind
  have same := markNumbers_separateWords behind
  rw [separateWords_of_marked behind, List.map_cons, space] at same
  rw [ofPlain_eq, markLeadingNumber_of_head marked first, separateWords_of_marked marked,
    List.map_append, List.map_cons, words, space, dropArticle_append mem, same]

theorem Marked.of_numerals (numerals : ∀ c ∈ digits, IsNumeral c) (h : Marked rest) :
    Marked (digits ++ rest) := by
  induction digits with
  | nil => exact h
  | cons c digits ih =>
    exact .keyChar (numerals c List.mem_cons_self).isKeyChar
      (ih fun d mem => numerals d (List.mem_cons_of_mem c mem))

/-- A number at the start is marked. -/
theorem head?_ofPlain_number (marked : Marked (digits ++ rest)) (nonempty : digits ≠ [])
    (numerals : ∀ c ∈ digits, IsNumeral c) (whole : ∀ c ∈ rest.head?, ¬ IsNumeral c)
    (fits : Text.decimalValue digits ≤ 9223372036854775807) :
    (ofPlain (digits ++ rest)).head? = some '~' := by
  obtain ⟨c, cs, padded, all⟩ := exists_paddedDecimal (Text.decimalValue digits)
  have again : Marked ('~' :: c :: (cs ++ rest)) :=
    .number (all c List.mem_cons_self) (Marked.of_numerals all marked.behind)
  have words : dropArticle (separateWords ('~' :: c :: (cs ++ rest))) =
      separateWords ('~' :: c :: (cs ++ rest)) := by
    rw [separateWords_of_marked again]
    rfl
  rw [ofPlain_eq, markLeadingNumber_append marked nonempty numerals whole,
    canonicalNumber_of_numerals nonempty numerals, if_pos fits, padded, List.cons_append,
    List.cons_append, words, markNumbers_separateWords again]
  exact Text.head?_trimChars_of_head? rfl rfl

theorem exists_leadingDigits (cs : List Char) : ∃ digits rest, cs = digits ++ rest ∧
    (∀ c ∈ digits, IsNumeral c) ∧ ∀ c ∈ rest.head?, ¬ IsNumeral c := by
  refine ⟨cs.takeWhile (IsNumeral ·), cs.dropWhile (IsNumeral ·),
    List.takeWhile_append_dropWhile.symm, fun c mem => ?_, fun c head => ?_⟩
  · simpa using List.mem_takeWhile_imp mem
  · have first := List.head?_dropWhile_not (fun c => decide (IsNumeral c)) cs
    rw [Option.mem_def.1 head] at first
    simpa using first

theorem markLeadingNumber_of_settled (marked : Marked key) (settled : ¬ Unsettled key) :
    markLeadingNumber key = key := by
  obtain ⟨digits, rest, rfl, numerals, whole⟩ := exists_leadingDigits key
  by_cases nonempty : digits = []
  · subst nonempty
    exact markLeadingNumber_of_head marked whole
  · rw [markLeadingNumber_append marked nonempty numerals whole,
      canonicalNumber_of_numerals nonempty numerals,
      if_neg fun fits => settled (.number nonempty numerals whole fits)]

/-- A character that falls apart into a letter is that letter. -/
theorem wordChar_of_isLetter (letter : IsLetter (wordChar c)) : wordChar c = c := by
  unfold wordChar at letter ⊢
  split
  · rfl
  · rename_i other
    rw [if_neg other] at letter
    exact absurd letter (by decide)

theorem dropArticle_of_settled (marked : Marked key) (settled : ¬ Unsettled key) :
    dropArticle (separateWords key) = separateWords key := by
  rcases dropArticle_cases (separateWords key) with same | ⟨word, mem, rest, all⟩
  · exact same
  · rw [separateWords_of_marked marked] at all
    obtain ⟨front, back, rfl, words, ends⟩ := List.map_eq_append_iff.1 all
    obtain ⟨mark, behind, rfl, space, -⟩ := List.map_eq_cons_iff.1 ends
    have kept : ∀ c ∈ front, wordChar c = c := fun c at' =>
      wordChar_of_isLetter (isLetter_of_mem_article mem _ (words ▸ List.mem_map_of_mem at'))
    have ends : mark = ' ' ∨ mark = '~' := by
      rcases marked.mem (List.mem_append_right front List.mem_cons_self) with char | h
      · rw [wordChar_of_isKeyChar char] at space
        exact .inl space
      · exact h.symm
    rw [List.map_congr_left kept, List.map_id'] at words
    exact absurd (.article (words ▸ mem) ends) settled

/-- All other keys are keys of themselves. -/
theorem ofPlain_of_settled (isKey : IsKey key) (settled : ¬ Unsettled key) : ofPlain key = key := by
  rw [ofPlain_eq, markLeadingNumber_of_settled isKey.marked settled,
    dropArticle_of_settled isKey.marked settled, markNumbers_separateWords isKey.marked,
    isKey.trimChars_eq]

/-- What is made of a key that is not settled does not even start with that key. -/
theorem IsKey.not_prefix_ofPlain (isKey : IsKey key) (unsettled : Unsettled key) :
    ¬ key <+: ofPlain key := by
  intro start
  cases unsettled with
  | @article word rest mark mem ends =>
    rw [ofPlain_article isKey.marked mem ends] at start
    have shorter := (Text.trimChars_infix (mark :: rest)).length_le
    have longer := start.length_le
    have nonempty : word ≠ [] := by
      rintro rfl
      exact absurd mem (by decide)
    have := List.length_pos_iff.2 nonempty
    rw [List.length_append] at longer
    omega
  | @number digits rest nonempty numerals whole fits =>
    have head := head?_ofPlain_number isKey.marked nonempty numerals whole fits
    obtain ⟨c, more, rfl⟩ := List.exists_cons_of_ne_nil nonempty
    obtain ⟨back, all⟩ := start
    rw [← all] at head
    cases head
    exact absurd (numerals '~' List.mem_cons_self) (by decide)

/-- A key is the key of itself exactly if nothing at its start is dropped or marked. -/
theorem ofText_eq_self_iff {s : String} (isKey : IsKey s.toList) :
    ofText s = s ↔ ¬ Unsettled s.toList := by
  have again : (ofText s).toList = ofPlain s.toList := by
    rw [toList_ofText, plain_of_marked isKey.marked]
  rw [← String.toList_inj, again]
  exact ⟨fun same unsettled => isKey.not_prefix_ofPlain unsettled ⟨[], by rw [same, List.append_nil]⟩,
    ofPlain_of_settled isKey⟩

theorem ofArtist_eq_self_iff {s : String} (isKey : IsKey s.toList)
    (absent : ∀ separator ∈ separators, ¬ separator <:+: s.toList) :
    ofArtist s = s ↔ ¬ Unsettled s.toList := by
  constructor
  · intro same unsettled
    refine isKey.not_prefix_ofPlain unsettled ?_
    have start := (isKey_ofText s).start_dropFeatured
    rw [← toList_ofArtist, same, toList_ofText, plain_of_marked isKey.marked] at start
    exact start
  · intro settled
    rw [← String.toList_inj, toList_ofArtist, (ofText_eq_self_iff isKey).2 settled]
    exact isKey.dropFeatured_of_absent absent

end MusicLibrary.SortKey
