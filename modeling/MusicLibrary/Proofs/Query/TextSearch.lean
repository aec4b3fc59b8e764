import Mathlib.Data.List.TakeWhile
import MusicLibrary.Proofs.Query.Negation
import MusicLibrary.Proofs.Query.Wildcard

/-! Rules that look for a text in a column. The value of such a rule stands in a pattern as it is,
so percent signs and underscores in it are wildcards; what it finds is told here for every value and
every text. A value without wildcards is found just where it stands in the text, and a value with
one is also found in texts in which it does not stand. -/

namespace MusicLibrary

open Query

namespace Smart.Operator

/-- Where in a text an operator wants its value. -/
def Lies (operator : Operator) (part text : List Char) : Prop :=
  match operator with
  | .contains => part <:+: text
  | .startsWith => part <+: text
  | .endsWith => part <:+ text
  | _ => part = text

instance (operator : Operator) (part text : List Char) : Decidable (operator.Lies part text) :=
  match operator with
  | .contains => inferInstanceAs (Decidable (part <:+: text))
  | .startsWith => inferInstanceAs (Decidable (part <+: text))
  | .endsWith => inferInstanceAs (Decidable (part <:+ text))
  | .is | .greaterThan | .lessThan | .between | .within | .bitwise | .other _ =>
    inferInstanceAs (Decidable (part = text))

theorem Lies.refl (operator : Operator) (text : List Char) : operator.Lies text text := by
  cases operator with
  | contains => exact List.infix_rfl
  | startsWith => exact List.prefix_rfl
  | endsWith => exact List.suffix_rfl
  | _ => rfl

theorem Lies.subset {operator : Operator} {part text : List Char} (h : operator.Lies part text) :
    part ⊆ text := by
  cases operator with
  | contains => exact List.IsInfix.subset h
  | startsWith => exact List.IsPrefix.subset h
  | endsWith => exact List.IsSuffix.subset h
  | _ => exact h ▸ List.Subset.refl _

theorem lies_map_iff {operator : Operator} (f : Char → Char) {part text : List Char} :
    operator.Lies part (text.map f) ↔ ∃ own, operator.Lies own text ∧ part = own.map f := by
  cases operator with
  | contains => exact List.infix_map_iff
  | startsWith => exact List.prefix_map_iff
  | endsWith => exact List.suffix_map_iff
  | _ => simp [Lies]

/-- A zero character ends a value and the pattern that it stands in, so that nothing may follow. -/
def ended : Operator → Operator
  | .contains => .endsWith
  | .startsWith => .is
  | operator => operator

/-- Whether a part of a text that lies where the operator wants it fits the value. -/
def Finds (operator : Operator) (value text : String) : Prop :=
  let place := if '\x00' ∈ value.toList then operator.ended else operator
  ∃ part, place.Lies part (legibleChars text) ∧ Fits (legibleChars value) part

end Smart.Operator

namespace Query

open Smart Predicate

/-! Patterns. -/

theorem legibleChars_append (a b : String) :
    legibleChars (a ++ b) =
      if '\x00' ∈ a.toList then legibleChars a else legibleChars a ++ legibleChars b := by
  simp only [legibleChars, String.toList_append]
  split
  · rename_i ends
    rw [List.takeWhile_append, if_neg]
    intro whole
    have all := List.takeWhile_eq_self_iff.1 ((List.takeWhile_prefix _).eq_of_length whole)
    simpa using all '\x00' ends
  · rename_i goesOn
    have all : ∀ c ∈ a.toList, decide (c ≠ '\x00') = true := by
      intro c mem
      exact decide_eq_true fun same => goesOn (same ▸ mem)
    rw [List.takeWhile_append_of_pos all, List.takeWhile_eq_self_iff.2 all, List.map_append]

@[simp] theorem legibleChars_percent : legibleChars "%" = ['%'] := by decide

theorem fits_pattern_iff {c : Condition (List String)} {value pattern text : String}
    {more : List String} (own : c.value = value :: more) (h : c.pattern? = some pattern) :
    Fits (legibleChars pattern) (legibleChars text) ↔ c.operator.Finds value text := by
  obtain ⟨field, sign, operator, values⟩ := c
  subst own
  rw [Operator.Finds]
  by_cases ends : '\x00' ∈ value.toList
  · -- The percent sign behind the value is not read.
    cases operator with
    | contains | startsWith | endsWith =>
      obtain rfl : _ = pattern := Option.some.inj h
      simp [legibleChars_append, ends, Fits.any_iff, Operator.ended, Operator.Lies]
    | _ => cases h
  · cases operator with
    | contains =>
      obtain rfl : _ = pattern := Option.some.inj h
      simp [legibleChars_append, ends, Fits.any_append_any_iff, Operator.Lies]
    | startsWith | endsWith =>
      obtain rfl : _ = pattern := Option.some.inj h
      simp [legibleChars_append, ends, Fits.any_iff, Fits.append_any_iff, Operator.Lies]
    | _ => cases h

/-! Literal values. -/

/-- A text that is read as it stands: no zero character ends it, and no character is replaced. -/
def IsLegible (s : String) : Prop := ∀ c ∈ s.toList, c ≠ '\x00' ∧ legible c = c

instance (s : String) : Decidable (IsLegible s) := List.decidableBAll _ s.toList

def folded (s : String) : List Char := s.toList.map Char.toLower

theorem IsLegible.legibleChars_eq {s : String} (h : IsLegible s) : legibleChars s = s.toList := by
  have whole : ∀ c ∈ s.toList, decide (c ≠ '\x00') = true := fun c mem => decide_eq_true (h c mem).1
  rw [legibleChars, List.takeWhile_eq_self_iff.2 whole,
    List.map_congr_left fun c mem => (h c mem).2, List.map_id']

theorem finds_iff_of_isLegible {operator : Operator} {value text : String}
    (value_legible : IsLegible value) (text_legible : IsLegible text) :
    operator.Finds value text ↔
      ∃ part, operator.Lies part text.toList ∧ Fits value.toList part := by
  have unended : '\x00' ∉ value.toList := fun mem => (value_legible _ mem).1 rfl
  simp only [Operator.Finds, if_neg unended, value_legible.legibleChars_eq,
    text_legible.legibleChars_eq]

/-- A value without wildcards is found where it stands, in either case. -/
theorem finds_iff_of_literal {operator : Operator} {value text : String}
    (value_legible : IsLegible value) (text_legible : IsLegible text)
    (literal : ∀ c ∈ value.toList, isWildcard c = false) :
    operator.Finds value text ↔ operator.Lies (folded value) (folded text) := by
  rw [finds_iff_of_isLegible value_legible text_legible, folded, folded, Operator.lies_map_iff]
  simp only [Fits.iff_of_plain literal, eq_comm]

/-- A value with wildcards is found in a text without any, in which it cannot stand. -/
theorem exists_finds_not_lies (operator : Operator) {value : String} (h : IsLegible value)
    {c : Char} (mem : c ∈ value.toList) (wildcard : isWildcard c = true) :
    ∃ text, IsLegible text ∧ operator.Finds value text ∧
      ¬ operator.Lies (folded value) (folded text) := by
  let text := String.ofList (filled value.toList)
  have chars : text.toList = filled value.toList := String.toList_ofList
  have legible : IsLegible text := by
    intro d inside
    rw [chars] at inside
    rcases (of_mem_filled inside).2 with rfl | own
    · decide
    · exact h d own
  refine ⟨text, legible, ?_, fun lies => ?_⟩
  · rw [finds_iff_of_isLegible h legible, chars]
    exact ⟨filled value.toList, .refl operator _, fits_filled value.toList⟩
  · -- The wildcard would have to stand in the text.
    have same : c.toLower = c := by
      rcases Bool.or_eq_true_iff.1 wildcard with percent | underscore
      · exact of_decide_eq_true percent ▸ rfl
      · exact of_decide_eq_true underscore ▸ rfl
    obtain ⟨d, inside, folds⟩ := List.mem_map.1 (lies.subset (List.mem_map_of_mem mem))
    rw [same] at folds
    rw [chars] at inside
    rw [← folds] at wildcard
    exact absurd (isWildcard_of_toLower wildcard) (by simp [(of_mem_filled inside).1])

/-! Rules. -/

end Query

namespace Smart

/-- A rule selects tracks by what a column holds: so it is tested on any row, and so the tracks are
found if it is the only rule. -/
structure Rule.Selects (rule : Rule) (column : Track.Column) (suits : String → Prop) : Prop where
  tested : ∀ (row : Predicate.Row) (held : Value), cell row.track column = some held →
    ∀ now join, ∃ b, Predicate.test row (ofRule now join rule) = some b ∧
      (b = true ↔ suits held.toText)
  found : ∀ (conjunction : Conjunction) (context : Context) (library : Library),
    ∃ tracks, (ofRuleSet ⟨conjunction, [rule]⟩ context).search library = some tracks ∧
      ∀ track ∈ library.tracks, track.location.isSome → ∀ held, cell track column = some held →
        (track ∈ tracks ↔ suits held.toText)

end Smart

namespace Query

open Smart Predicate

theorem ofRule_text {c : Condition (List String)} {column : Track.Column} {pattern : String}
    (own : c.field.column? = some column) (h : c.pattern? = some pattern) (now : Timestamp)
    (join : Nat) : ofRule now join (.text c) = .like column pattern c.sign.isNegated := by
  rw [ofRule, onColumn, own]
  exact textPredicate_of_pattern? column h

/-- A rule with a pattern that is not too long selects the tracks in whose text its value is
found. -/
theorem selects_of_pattern? {c : Condition (List String)} {column : Track.Column}
    {value pattern : String} {more : List String} (own : c.field.column? = some column)
    (plain : c.sign.isNegated = false) (first : c.value = value :: more)
    (h : c.pattern? = some pattern) (short : (Rule.text c).hasLongPattern = false) :
    (Rule.text c).Selects column (c.operator.Finds value) := by
  have size : pattern.utf8ByteSize ≤ maxPatternSize := by
    simpa [Rule.hasLongPattern, Rule.pattern?, h] using short
  have condition : ∀ now join, ofRule now join (.text c) = .like column pattern false :=
    fun now join => plain ▸ ofRule_text own h now join
  have holds_iff : ∀ (row : Row) held, cell row.track column = some held →
      (holds row (.like column pattern false) = true ↔ c.operator.Finds value held.toText) := by
    intro row held value_eq
    rw [holds, truth, value_eq, Option.map_some, Bool.bne_false, like_eq, beq_iff_eq,
      Option.some.injEq, likeChars_eq_true_iff, fits_pattern_iff first h]
  constructor
  · intro row held value_eq now join
    refine ⟨holds row (.like column pattern false), ?_, holds_iff row held value_eq⟩
    rw [condition, test, if_neg (Nat.not_lt.2 size)]
  · intro conjunction context library
    have short : (ofRuleSet ⟨conjunction, [.text c]⟩ context).condition.IsShort := by
      refine isShort_group.2 (List.forall_mem_singleton.2 ?_)
      rw [condition]
      exact fun s mem => List.mem_singleton.1 mem ▸ size
    refine ⟨_, search_eq_matching short library, fun track mem file held value_eq => ?_⟩
    rw [matching_ofRule, List.mem_filter, file, Bool.true_and, condition]
    exact (and_iff_right mem).trans (holds_iff (firstRow library _ track) held value_eq)

/-- A rule that looks for a text selects the tracks in whose text it is found, unless its pattern is
too long to be matched. A legible value is found where it stands in legible texts, and nowhere else,
just if it has no wildcards. -/
theorem selects_text {c : Condition (List String)} {column : Track.Column} {value : String}
    {more : List String} (own : c.field.column? = some column) (plain : c.sign.isNegated = false)
    (first : c.value = value :: more)
    (looks : c.operator = .contains ∨ c.operator = .startsWith ∨ c.operator = .endsWith) :
    let rule := Rule.text c
    (if rule.hasLongPattern then ∀ row now join, test row (ofRule now join rule) = none
      else rule.Selects column (c.operator.Finds value)) ∧
    (IsLegible value →
      ((∀ text, IsLegible text →
          (c.operator.Finds value text ↔ c.operator.Lies (folded value) (folded text))) ↔
        ∀ p ∈ value.toList, isWildcard p = false)) := by
  intro rule
  obtain ⟨pattern, pattern?_eq⟩ : ∃ pattern, c.pattern? = some pattern := by
    refine Option.isSome_iff_exists.1 ?_
    rcases looks with operator | operator | operator <;> simp [Condition.pattern?, first, operator]
  constructor
  · split
    · rename_i long
      intro row now join
      rw [ofRule_text own pattern?_eq, test, if_pos]
      simpa [Rule.hasLongPattern, rule, Rule.pattern?, pattern?_eq] using long
    · rename_i short
      exact selects_of_pattern? own plain first pattern?_eq (Bool.not_eq_true _ ▸ short)
  · intro legible
    constructor
    · intro agree p mem
      by_contra wildcard
      obtain ⟨text, text_legible, finds, lies⟩ :=
        exists_finds_not_lies c.operator legible mem (Bool.not_eq_false _ ▸ wildcard)
      exact lies ((agree text text_legible).1 finds)
    · exact fun literal text text_legible => finds_iff_of_literal legible text_legible literal

/-- A value with an underscore is found where any character stands for it. -/
theorem selects_text_ng :
    let c : Condition (List String) := ⟨.name, .strPos, .contains, ["_NG", "more"]⟩
    c.field.column? = some .name ∧ c.sign.isNegated = false ∧
      (Rule.text c).Selects .name (Operator.contains.Finds "_NG") ∧
      Operator.contains.Finds "_NG" "Song" := by
  intro c
  have selects := (selects_text (rfl : c.field.column? = some .name) rfl rfl (.inl rfl)).1
  have short : ¬ (Rule.text c).hasLongPattern = true := by decide
  rw [if_neg short] at selects
  have fits : likeChars "_NG".toList "ong".toList = true := by decide
  refine ⟨rfl, rfl, selects, (finds_iff_of_isLegible (by decide) (by decide)).2 ?_⟩
  exact ⟨"ong".toList, ⟨['S'], [], rfl⟩, likeChars_eq_true_iff.1 fits⟩

end Query

namespace Store

open Smart

def called (name : String) : Track := { id := ⟨1⟩, location := some "file:///1", name := some name }

/-- What a smart playlist lists that looks for a value in names, of a library of one track. -/
def lookup (operator : Operator) (value name : String) : Except Failure (List Track) :=
  (Store.empty.writeTrack (called name)).smartTracks .stable
    (unlimited .and [.text ⟨.name, .strPos, operator, [value]⟩]) epoch

theorem lookup_of_long {s : String} (long : Query.maxPatternSize ≤ s.utf8ByteSize)
    (name : String) : lookup .contains s name = .error unanswerable := by
  have tracks : (Store.empty.writeTrack (called name)).library.tracks = [called name] := rfl
  have search := search_of_hasLongPattern rfl (hasLongPattern_contains long .name .strPos) .and epoch
    (tracks ▸ List.mem_singleton_self (called name)) rfl
  rw [lookup, smartTracks, Smart.tracks?, Query.run?]
  split
  · rfl
  · exact congrArg (fun found => told unanswerable (Option.map _ found)) search

/-- Wildcards of a value are found in texts in which it does not stand, and so is what comes before
a zero character; a text is read up to its own, noncharacters are read alike, and a value may be too
long to be found at all. -/
theorem found_elsewhere :
    let lies := fun (operator : Operator) value name => operator.Lies (folded value) (folded name)
    let long := String.ofList (List.replicate 50000 'a')
    (lookup .contains "_" "Song" = .ok [called "Song"] ∧ ¬ lies .contains "_" "Song") ∧
    (lookup .startsWith "%n" "Song" = .ok [called "Song"] ∧ ¬ lies .startsWith "%n" "Song") ∧
    (lookup .endsWith "S%" "Song" = .ok [called "Song"] ∧ ¬ lies .endsWith "S%" "Song") ∧
    (lookup .contains "g\x00s" "Song" = .ok [called "Song"] ∧ ¬ lies .contains "g\x00s" "Song") ∧
    (lookup .contains "ng" "So\x00ng" = .ok [] ∧ lies .contains "ng" "So\x00ng") ∧
    (lookup .contains "\ufffe" "\uffff" = .ok [called "\uffff"] ∧
      ¬ lies .contains "\ufffe" "\uffff") ∧
    lookup .contains long long = .error unanswerable ∧ lies .contains long long := by
  intro lies long
  have size : Query.maxPatternSize ≤ long.utf8ByteSize := by
    rw [Text.utf8ByteSize_ofList, List.length_replicate]
    · exact Nat.le_refl 50000
    · intro c mem
      rw [List.eq_of_mem_replicate mem]
      rfl
  exact ⟨by decide +kernel, by decide +kernel, by decide +kernel, by decide +kernel,
    by decide +kernel, by decide +kernel, lookup_of_long size long, Operator.Lies.refl _ _⟩

end Store

end MusicLibrary
