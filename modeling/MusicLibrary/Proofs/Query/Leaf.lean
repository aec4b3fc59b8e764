import Mathlib.Order.Defs.LinearOrder
import MusicLibrary.Proofs.Query.Meaning

/-! The condition that a query makes from a leaf holds of a track just when the leaf does, and is
unknown when the leaf is. Comparisons are treated once for all types of values, by the order of
what they stand for. -/

namespace MusicLibrary.Query

open Smart Predicate

/-! Comparisons. -/

section

variable {α β : Type} [LT β] [DecidableLT β] [DecidableEq β]

/-- Values are compared as what they stand for. -/
structure Ranks (wrap : α → Value) (before : α → α → Bool) (rank : α → β) : Prop where
  order : ∀ a b, (wrap a).order (wrap b) = compareOfLessAndEq (rank a) (rank b)
  before : ∀ a b, before a b = decide (rank a < rank b)

variable {row : Row} {column : Track.Column} {held : Option α}
variable {wrap : α → Value} {before : α → α → Bool} {rank : α → β}

theorem truth_compare (ranks : Ranks wrap before rank)
    (cell : cell row.track column = held.map wrap) (c : Comparison) (negated : Bool) (b : α) :
    truth row (.compare column (if negated then c.negation else c) (wrap b)) =
      held.map fun a => c.holds (compareOfLessAndEq (rank a) (rank b)) != negated := by
  rw [truth, cell, Option.map_map]
  cases negated <;> simp [Function.comp_def, ranks.order]

variable [LE β] [DecidableLE β] [Std.IsLinearOrder β] [Std.LawfulOrderLT β]

theorem holds_compareOfLessAndEq (c : Comparison) (a b : β) :
    c.holds (compareOfLessAndEq a b) =
      match c with
      | .equal => decide (a = b)
      | .notEqual => !decide (a = b)
      | .less => decide (a < b)
      | .lessOrEqual => decide (a ≤ b)
      | .greater => decide (b < a)
      | .greaterOrEqual => decide (b ≤ a) := by
  unfold compareOfLessAndEq
  cases c <;> simp only [Comparison.holds] <;> split <;> (try split) <;> grind

omit [LT β] [DecidableLT β] [DecidableEq β] [LE β] [DecidableLE β] [Std.IsLinearOrder β]
  [Std.LawfulOrderLT β] in
theorem first_ofList (wrap : α → Value) (before : α → α → Bool) (default : α) (values : List α) :
    (Operands.ofList wrap before default values).first = wrap (values.headD default) := by
  rw [Operands.ofList]
  split <;> rfl

/-- The two ends of a range, in order. -/
theorem ofList_range (ranks : Ranks wrap before rank) (default : α) (values : List α) :
    ∃ low high, (Operands.ofList wrap before default values).low = wrap low ∧
      (Operands.ofList wrap before default values).high = wrap high ∧
      ∀ a, Operator.compares .between (rank default) (values.map rank) a =
        (decide (rank low ≤ a) && decide (a ≤ rank high)) := by
  have first : (values.map rank).headD (rank default) = rank (values.headD default) := by
    cases values <;> rfl
  have second : (values.map rank).getD 1 (rank default) = rank (values.getD 1 default) := by
    simp [List.getD_eq_getElem?_getD, Option.getD_map]
  simp only [Operator.compares, first, second, Operands.ofList, ranks.before]
  split
  · exact ⟨_, _, rfl, rfl, fun a => by grind⟩
  · exact ⟨_, _, rfl, rfl, fun a => by grind⟩

omit [LT β] [DecidableLT β] [DecidableEq β] [LE β] [DecidableLE β] [Std.IsLinearOrder β]
  [Std.LawfulOrderLT β] in
/-- Of two questions about one value both are answered in the affirmative, or in the negative one
is not. -/
theorem conjoin_map (held : Option α) (p q : α → Bool) (negated : Bool) :
    conjoin (if negated then .or else .and) (held.map fun a => p a != negated)
        (held.map fun a => q a != negated) =
      held.map fun a => (p a && q a) != negated := by
  cases held with
  | none => cases negated <;> rfl
  | some a =>
    simp only [Option.map_some]
    generalize p a = left
    generalize q a = right
    cases negated <;> cases left <;> cases right <;> rfl

/-- A comparison and its negation, of a value with those of a rule. -/
theorem truth_compareOperands (ranks : Ranks wrap before rank)
    (cell : cell row.track column = held.map wrap) (operator : Operator) (negated : Bool)
    (default : α) (values : List α) :
    truth row (compareOperands column operator negated (.ofList wrap before default values)) =
      held.map fun a =>
        operator.compares (rank default) (values.map rank) (rank a) != negated := by
  have first : (values.map rank).headD (rank default) = rank (values.headD default) := by
    cases values <;> rfl
  have test := truth_compare ranks cell
  cases operator with
  | between =>
    obtain ⟨low, high, lowEnd, highEnd, range⟩ := ofList_range ranks default values
    rw [compareOperands, lowEnd, highEnd]
    change truthOfParts row _ [_, _] = _
    simp only [truthOfParts, conjoin_neutral, test, holds_compareOfLessAndEq, conjoin_map, range]
  | _ =>
    simp only [compareOperands, first_ofList, test, holds_compareOfLessAndEq, Operator.compares,
      first]

end

/-! Columns. -/

theorem cell_eq_read {track : Track} {column : Track.Column} {type : FieldType}
    (h : column.type = type) :
    cell track column = (track.read type column).map (Value.ofField type) := by
  subst h
  simp [cell, Track.read]

theorem ranks_text : Ranks Value.text (fun a b => decide (a < b)) (id : String → String) :=
  ⟨fun _ _ => rfl, fun _ _ => rfl⟩

theorem ranks_integer : Ranks Value.integer (fun a b => decide (a < b)) Int64.toInt :=
  ⟨fun _ _ => rfl, fun a b => by rw [decide_eq_decide, Int64.lt_iff_toInt_lt]⟩

theorem truth_isNull {row : Row} {column : Track.Column} {held : Option α} {wrap : α → Value}
    (cell : cell row.track column = held.map wrap) (negated : Bool) :
    truth row (.isNull column negated) = some (held.isNone != negated) := by
  rw [truth, cell, Option.isNone_map]

theorem truth_like {row : Row} {column : Track.Column} {held : Option String}
    (cell : cell row.track column = held.map Value.text) (pattern : String) (negated : Bool) :
    truth row (.like column pattern negated) =
      held.map fun text => fitsPattern pattern text != negated := by
  rw [truth, cell, Option.map_map]
  simp only [Function.comp_def, Value.toText, like_eq, fitsPattern]

/-! Leaves. -/

variable {row : Row} {column : Track.Column}

theorem truth_textPredicate (h : column.type = .text) (c : Condition (List String)) :
    truth row (textPredicate column c) = c.askText (row.track.read .text column) := by
  have cell : cell row.track column = (row.track.read .text column).map Value.text :=
    cell_eq_read h
  generalize row.track.read .text column = held at cell
  obtain ⟨field, sign, operator, values⟩ := c
  cases values with
  | nil =>
    have missing := truth_isNull cell sign.isNegated
    have empty := truth_compare ranks_text cell .equal sign.isNegated ""
    simp only [textPredicate, Condition.askText, Sign.answer]
    generalize sign.isNegated = negated at missing empty
    change truthOfParts row _ [_, .compare column
      (if negated then Comparison.equal.negation else .equal) _] = _
    simp only [truthOfParts, conjoin_neutral, missing, empty, holds_compareOfLessAndEq]
    cases held with
    | none => cases negated <;> rfl
    | some text => cases negated <;> cases h : decide (text = "") <;> simp_all <;> rfl
  | cons first rest =>
    have compared := truth_compareOperands ranks_text cell operator sign.isNegated ""
      (first :: rest)
    rw [List.map_id] at compared
    cases operator <;>
      first | exact truth_like cell _ _ | exact compared

theorem truth_integerPredicate (h : column.type = .integer) (c : Condition (List Int64)) :
    truth row (integerPredicate column c) = c.askInteger (row.track.read .integer column) := by
  have cell : cell row.track column = (row.track.read .integer column).map Value.integer :=
    cell_eq_read h
  rw [integerPredicate, Condition.askInteger]
  split
  · exact truth_isNull cell _
  · exact truth_compareOperands ranks_integer cell c.operator c.sign.isNegated 0 c.value

theorem truth_datePredicate (h : column.type = .time) (now : Timestamp)
    (c : Condition (List Timestamp)) :
    truth row (datePredicate now column c) = c.askDate now (row.track.read .time column) := by
  have cell : cell row.track column = ((row.track.read .time column).map (·.ms)).map .integer := by
    rw [cell_eq_read h, Option.map_map]
    rfl
  generalize row.track.read .time column = held at cell
  obtain ⟨field, sign, operator, times⟩ := c
  cases times with
  | nil => exact (truth_isNull cell sign.isNegated).trans (by rw [Option.isNone_map]; rfl)
  | cons first rest =>
    by_cases within : operator = .within
    · subst within
      have since := truth_compare ranks_integer cell .greaterOrEqual sign.isNegated
        (now.addMillis first.ms).ms
      simp only [holds_compareOfLessAndEq, ← Int64.le_iff_toInt_le, Option.map_map] at since
      exact since
    · have compared := truth_compareOperands ranks_integer cell operator sign.isNegated 0
        ((first :: rest).map (·.ms))
      rw [Option.map_map, List.map_map] at compared
      cases operator <;> first | exact compared | exact absurd rfl within

theorem truth_flagPredicate (h : column.type = .flag) (c : Condition (Option Bool)) :
    truth row (flagPredicate column c) = c.askFlag (row.track.read .flag column) := by
  have cell : cell row.track column =
      ((row.track.read .flag column).map fun b => if b then 1 else 0).map .integer := by
    rw [cell_eq_read h, Option.map_map]
    rfl
  generalize row.track.read .flag column = held at cell
  obtain ⟨field, sign, operator, value⟩ := c
  cases value with
  | none => exact (truth_isNull cell sign.isNegated).trans (by rw [Option.isNone_map]; rfl)
  | some flag =>
    have equal := truth_compare ranks_integer cell .equal sign.isNegated (if flag then 1 else 0)
    simp only [holds_compareOfLessAndEq, Option.map_map] at equal
    refine Eq.trans equal (congrArg (Option.map · held) (funext fun b => ?_))
    cases b <;> cases flag <;> rfl

/-- A media kind is told by the number that a column holds for it. -/
theorem toInt_bits_inj {a b : MediaKind} :
    a.bits.toUInt64.toInt64.toInt = b.bits.toUInt64.toInt64.toInt ↔ a = b := by
  rw [toInt_widen, toInt_widen, Int.natCast_inj, UInt32.toNat_inj]
  exact ⟨fun same => congrArg MediaKind.mk same, fun same => congrArg MediaKind.bits same⟩

theorem truth_mediaKindPredicate (c : Condition (Option MediaKind)) :
    truth row (mediaKindPredicate c) = c.askMediaKind row.track.mediaKind := by
  have cell : cell row.track .mediaKind =
      (row.track.mediaKind.map fun kind => kind.bits.toUInt64.toInt64).map .integer := by
    rw [Option.map_map]
    rfl
  obtain ⟨field, sign, operator, value⟩ := c
  cases value with
  | none => exact (truth_isNull cell sign.isNegated).trans (by rw [Option.isNone_map]; rfl)
  | some kind =>
    have equal := truth_compare ranks_integer cell .equal sign.isNegated
      kind.bits.toUInt64.toInt64
    simp only [holds_compareOfLessAndEq, Option.map_map, Function.comp_def, toInt_bits_inj]
      at equal
    cases operator <;> first | exact equal | rfl

end MusicLibrary.Query
