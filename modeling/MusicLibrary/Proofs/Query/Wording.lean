import MusicLibrary.Proofs.Query.Negation
import MusicLibrary.Proofs.Query.Placeholder

/-! How a smart playlist is put in words. What its query says depends on the form of its rules, and
not on the values that they compare with: these are bound to the placeholders, the playlists of the
joins first, then the values of the rules in the order of the tree. -/

namespace MusicLibrary

namespace Smart

/-! The form of a rule: which values it carries is forgotten, and that it carries any is kept. -/

def formOfList [Inhabited V] : List V → List V
  | [] => []
  | _ :: _ => [default]

def formOfOption [Inhabited V] (value : Option V) : Option V := value.map fun _ => default

mutual

def Rule.form : Rule → Rule
  | .group conjunction rules => .group conjunction (formsOfRules rules)
  | .text c => .text { c with value := formOfList c.value }
  | .integer c => .integer { c with value := formOfList c.value }
  | .flag c => .flag { c with value := formOfOption c.value }
  | .date c => .date { c with value := formOfList c.value }
  | .mediaKind c => .mediaKind { c with value := formOfOption c.value }
  | .playlist c => .playlist { c with value := formOfOption c.value }
  | .unknown c => .unknown c
termination_by structural rule => rule

def formsOfRules : List Rule → List Rule
  | [] => []
  | rule :: rest => rule.form :: formsOfRules rest
termination_by structural rules => rules

end

def RuleSet.form (set : RuleSet) : RuleSet := ⟨set.conjunction, formsOfRules set.rules⟩

/-- What the words of a query come from: the forms of the rules, and the limit. -/
def form (smart : Smart) : Smart where
  ruleset := smart.ruleset.form
  limit := smart.limit

/-! The values of a rule. -/

/-- What a comparison binds: the two ends of a range, the lower one first, or the first value. -/
def Operator.bound (operator : Operator) (operands : Query.Operands) : List Query.Value :=
  if operator = .between then [operands.low, operands.high] else [operands.first]

def boundIntegers (operator : Operator) (values : List Int64) : List Query.Value :=
  if values.isEmpty then []
  else operator.bound (.ofList .integer (fun a b => decide (a < b)) 0 values)

/-- A text is bound as the pattern that finds it where the rule asks for a part. -/
def boundTexts (c : Condition (List String)) : List Query.Value :=
  match c.pattern? with
  | some pattern => [.text pattern]
  | none =>
    if c.value.isEmpty then [.text ""]
    else c.operator.bound (.ofList .text (fun a b => decide (a < b)) "" c.value)

def boundTimes (now : Timestamp) (c : Condition (List Timestamp)) : List Query.Value :=
  match c.value, c.operator with
  | first :: _, .within => [.integer (now.addMillis first.ms).ms]
  | times, operator => boundIntegers operator (times.map (·.ms))

mutual

/-- The values that a rule binds, in the order of the tree. One without a column binds none, and
the playlist of a rule is bound where it is joined. -/
def Rule.bound (now : Timestamp) : Rule → List Query.Value
  | .group _ rules => boundOfRules now rules
  | .text c => if c.field.column?.isSome then boundTexts c else []
  | .integer c => if c.field.column?.isSome then boundIntegers c.operator c.value else []
  | .flag c =>
    if c.field.column?.isSome then (c.value.map (Query.Value.ofField .flag)).toList else []
  | .date c => if c.field.column?.isSome then boundTimes now c else []
  | .mediaKind c => (c.value.map (Query.Value.ofField .mediaKind)).toList
  | .playlist _ | .unknown _ => []
termination_by structural rule => rule

def boundOfRules (now : Timestamp) : List Rule → List Query.Value
  | [] => []
  | rule :: rest => rule.bound now ++ boundOfRules now rest
termination_by structural rules => rules

end

end Smart

namespace Query

open Smart

variable {now : Timestamp} {join : Nat} {column : Track.Column}

namespace Predicate

/-- A condition with its placeholders. -/
def wording (p : Predicate) : String := p.written fun _ => "?"

theorem sql_fragments (p : Predicate) : Fragment.sql p.fragments = p.wording := by
  rw [Fragment.sql_eq_written, written_fragments, wording]

theorem writtenParts_eq (write : Value → String) (parts : List Predicate) :
    writtenParts write parts = parts.map (written write) := by
  induction parts with
  | nil => rfl
  | cons p rest ih => rw [writtenParts, ih, List.map_cons]

end Predicate

open Predicate

theorem wording_groupPredicate {conjunction : Conjunction} {ps qs : List Predicate}
    (h : ps.map wording = qs.map wording) :
    (groupPredicate conjunction ps).wording = (groupPredicate conjunction qs).wording := by
  have empty : ps.isEmpty = qs.isEmpty := by
    rw [← List.isEmpty_map (f := wording), h, List.isEmpty_map]
  rw [groupPredicate, groupPredicate, empty]
  split
  · rfl
  · rw [wording, wording, Predicate.written, Predicate.written, writtenParts_eq, writtenParts_eq]
    exact congrArg (fun words => "(" ++ (" " ++ conjunction.word ++ " ").intercalate words ++ ")") h

theorem wording_compareOperands (operator : Operator) (negated : Bool) (a b : Operands) :
    (compareOperands column operator negated a).wording =
      (compareOperands column operator negated b).wording := by
  cases operator <;> cases negated <;> rfl

theorem wording_textPredicate (c : Condition (List String)) :
    (textPredicate column { c with value := formOfList c.value }).wording =
      (textPredicate column c).wording := by
  obtain ⟨field, sign, operator, _ | ⟨first, more⟩⟩ := c
  · rfl
  · cases operator <;> rfl

theorem wording_integerPredicate {c d : Condition (List Int64)}
    (sign : c.sign = d.sign) (operator : c.operator = d.operator)
    (empty : c.value.isEmpty = d.value.isEmpty) :
    (integerPredicate column c).wording = (integerPredicate column d).wording := by
  rw [integerPredicate, integerPredicate, sign, operator, empty]
  split
  · rfl
  · exact wording_compareOperands _ _ _ _

theorem isEmpty_formOfList [Inhabited V] (values : List V) :
    (formOfList values).isEmpty = values.isEmpty := by
  cases values <;> rfl

theorem wording_datePredicate (c : Condition (List Timestamp)) :
    (datePredicate now column { c with value := formOfList c.value }).wording =
      (datePredicate now column c).wording := by
  obtain ⟨field, sign, operator, _ | ⟨first, more⟩⟩ := c
  · rfl
  · cases operator <;> rfl

theorem wording_flagPredicate (c : Condition (Option Bool)) :
    (flagPredicate column { c with value := formOfOption c.value }).wording =
      (flagPredicate column c).wording := by
  obtain ⟨field, sign, operator, _ | flag⟩ := c <;> rfl

theorem wording_mediaKindPredicate (c : Condition (Option MediaKind)) :
    (mediaKindPredicate { c with value := formOfOption c.value }).wording =
      (mediaKindPredicate c).wording := by
  obtain ⟨field, sign, operator, _ | kind⟩ := c
  · rfl
  · cases operator <;> rfl

theorem wording_onColumn {field : Smart.Field} {p q : Track.Column → Predicate}
    (h : ∀ column, (p column).wording = (q column).wording) :
    (onColumn field p).wording = (onColumn field q).wording := by
  rw [onColumn, onColumn]
  cases field.column? with
  | none => rfl
  | some column => exact h column

theorem joinsOfRules_eq (rules : List Rule) : joinsOfRules rules = rules.flatMap joinsOfRule := by
  induction rules with
  | nil => rfl
  | cons rule rest ih => rw [joinsOfRules, ih, List.flatMap_cons]

theorem formsOfRules_eq (rules : List Rule) : formsOfRules rules = rules.map Rule.form := by
  induction rules with
  | nil => rfl
  | cons rule rest ih => rw [formsOfRules, ih, List.map_cons]

theorem joinsOfRule_form (rule : Rule) :
    joinsOfRule rule.form =
      (joinsOfRule rule).map (Option.map fun _ => (default : PersistentId).key) := by
  induction rule using Rule.induct with
  | group conjunction rules ih =>
    rw [Rule.form, joinsOfRule, joinsOfRule, joinsOfRules_eq, joinsOfRules_eq, formsOfRules_eq,
      List.flatMap_map, List.map_flatMap]
    exact List.flatMap_congr ih
  | playlist c =>
    obtain ⟨field, sign, operator, _ | id⟩ := c <;> rfl
  | _ => rfl

theorem wording_ofRules {rules : List Rule}
    (h : ∀ rule ∈ rules, ∀ join,
      (ofRule now join rule.form).wording = (ofRule now join rule).wording) :
    (ofRules now join (formsOfRules rules)).map wording = (ofRules now join rules).map wording := by
  induction rules generalizing join with
  | nil => rfl
  | cons rule rest ih =>
    obtain ⟨own, others⟩ := List.forall_mem_cons.mp h
    -- The form of a rule has as many joins, so those of the rest are counted from the same one.
    rw [formsOfRules, ofRules, ofRules, List.map_cons, List.map_cons, own, joinsOfRule_form,
      List.length_map, ih others]

/-- A condition and the one that the form of its rule makes are worded alike. -/
theorem wording_ofRule (rule : Rule) :
    (ofRule now join rule.form).wording = (ofRule now join rule).wording := by
  induction rule using Rule.induct generalizing join with
  | group conjunction rules ih =>
    exact wording_groupPredicate (wording_ofRules fun r mem j => ih r mem)
  | text c => exact wording_onColumn fun _ => wording_textPredicate c
  | integer c =>
    exact wording_onColumn fun _ => wording_integerPredicate rfl rfl (isEmpty_formOfList c.value)
  | flag c => exact wording_onColumn fun _ => wording_flagPredicate c
  | date c => exact wording_onColumn fun _ => wording_datePredicate c
  | mediaKind c => exact wording_mediaKindPredicate c
  | playlist c => obtain ⟨field, sign, operator, _ | id⟩ := c <;> rfl
  | unknown c => rfl

theorem warningsOfRules_eq (rules : List Rule) :
    warningsOfRules rules = rules.flatMap warningsOfRule := by
  induction rules with
  | nil => rfl
  | cons rule rest ih => rw [warningsOfRules, ih, List.flatMap_cons]

theorem warningsOfRule_form (rule : Rule) : warningsOfRule rule.form = warningsOfRule rule := by
  induction rule using Rule.induct with
  | group conjunction rules ih =>
    rw [Rule.form, warningsOfRule, warningsOfRule, warningsOfRules_eq, warningsOfRules_eq,
      formsOfRules_eq, List.flatMap_map]
    exact List.flatMap_congr ih
  | _ => rfl

/-! Values. -/

theorem values_compareOperands (operator : Operator) (negated : Bool) (operands : Operands) :
    Fragment.values (compareOperands column operator negated operands).fragments =
      operator.bound operands := by
  cases operator <;> rfl

theorem values_integerPredicate (c : Condition (List Int64)) :
    Fragment.values (integerPredicate column c).fragments = boundIntegers c.operator c.value := by
  rw [integerPredicate, boundIntegers]
  split
  · rfl
  · exact values_compareOperands _ _ _

theorem values_textPredicate (c : Condition (List String)) :
    Fragment.values (textPredicate column c).fragments = boundTexts c := by
  obtain ⟨field, sign, operator, _ | ⟨first, more⟩⟩ := c
  · cases operator <;> rfl
  · cases operator <;> rfl

theorem values_datePredicate (c : Condition (List Timestamp)) :
    Fragment.values (datePredicate now column c).fragments = boundTimes now c := by
  obtain ⟨field, sign, operator, _ | ⟨first, more⟩⟩ := c
  · rfl
  · cases operator <;> rfl

theorem values_onColumn (field : Smart.Field) {predicate : Track.Column → Predicate}
    {values : List Value} (h : ∀ column, Fragment.values (predicate column).fragments = values) :
    Fragment.values (onColumn field predicate).fragments =
      if field.column?.isSome then values else [] := by
  rw [onColumn]
  cases field.column? with
  | none => rfl
  | some column => exact h column

theorem values_groupPredicate (conjunction : Conjunction) (parts : List Predicate) :
    Fragment.values (groupPredicate conjunction parts).fragments =
      parts.flatMap fun p => Fragment.values p.fragments := by
  cases parts with
  | nil => rfl
  | cons p rest => exact values_group conjunction (p :: rest)

theorem values_ofRules {rules : List Rule}
    (h : ∀ rule ∈ rules, ∀ join,
      Fragment.values (ofRule now join rule).fragments = rule.bound now) :
    ((ofRules now join rules).flatMap fun p => Fragment.values p.fragments) =
      boundOfRules now rules := by
  induction rules generalizing join with
  | nil => rfl
  | cons rule rest ih =>
    obtain ⟨own, others⟩ := List.forall_mem_cons.mp h
    rw [ofRules, List.flatMap_cons, own, ih others, boundOfRules]

/-- A condition binds the values of its rule, whatever it is joined with. -/
theorem values_ofRule (rule : Rule) :
    Fragment.values (ofRule now join rule).fragments = rule.bound now := by
  induction rule using Rule.induct generalizing join with
  | group conjunction rules ih =>
    rw [ofRule, values_groupPredicate, Rule.bound]
    exact values_ofRules fun r mem j => ih r mem
  | text c => exact values_onColumn _ fun _ => values_textPredicate c
  | integer c => exact values_onColumn _ fun _ => values_integerPredicate c
  | flag c =>
    refine values_onColumn _ fun _ => ?_
    obtain ⟨field, sign, operator, _ | flag⟩ := c <;> rfl
  | date c => exact values_onColumn _ fun _ => values_datePredicate c
  | mediaKind c =>
    obtain ⟨field, sign, operator, _ | kind⟩ := c
    · rfl
    · cases operator <;> rfl
  | playlist c => rfl
  | unknown c => rfl

/-! Queries. -/

/-- All that a query is but the values that it binds, and how many these are. -/
structure Wording where
  condition : String
  aliases : List String
  distinct : Bool
  order : Option String
  limit : Option UInt64
  maxSize : Option UInt64
  maxTime : Option UInt64
  warnings : List String
  sql : String
  count : Nat

def wording (query : Query) : Wording where
  condition := Fragment.sql query.condition.fragments
  aliases := query.joins.mapIdx fun join _ => joinAlias join
  distinct := query.distinct
  order := query.order.map Order.sql
  limit := query.limit
  maxSize := query.maxSize
  maxTime := query.maxTime
  warnings := query.warnings
  sql := query.sql
  count := query.parameters.length

/-- The values of a query have the placeholders of its SQL: first the playlists of the joins, then
the given ones. Each placeholder stands where its value is meant. -/
structure Binds (query : Query) (values : List Value) : Prop where
  parameters : query.parameters = query.joins.filterMap (·.map .integer) ++ values
  count : query.sql.toList.count '?' = query.parameters.length
  filled : ∀ write, fill write query.sql.toList query.parameters = (query.written write).toList

theorem binds (query : Query) : query.Binds (Fragment.values query.condition.fragments) where
  parameters := by rw [parameters_eq, values_joinsFragments]
  count := Fragment.count_sql query.isPlain_fragments
  filled write := by
    rw [← written_fragments]
    exact Fragment.fill_sql query.isPlain_fragments

theorem mapIdx_joins {f : Nat → Option Key → String} (id : Key)
    (same : ∀ join other, f join (some id) = f join (some other)) (joins : List (Option Key)) :
    (joins.map (Option.map fun _ => id)).mapIdx f = joins.mapIdx f := by
  induction joins generalizing f with
  | nil => rfl
  | cons playlist rest ih =>
    rw [List.map_cons, List.mapIdx_cons, List.mapIdx_cons, ih fun join => same (join + 1)]
    cases playlist with
    | none => rfl
    | some other => rw [Option.map_some, same 0 other]

theorem sql_eq (query : Query) : query.sql = query.written fun _ => "?" := by
  rw [sql, Fragment.sql_eq_written, written_fragments]

/-- Which playlists are joined makes no difference to the words. -/
theorem wording_with {query : Query} {condition : Predicate} (id : Key)
    (words : condition.wording = query.condition.wording) :
    wording { query with
      condition
      joins := query.joins.map (Option.map fun _ => id) } = query.wording := by
  have joined := mapIdx_joins
    (f := fun join playlist => " " ++ writtenJoin (fun _ => "?") join playlist) id
    (fun _ _ => rfl) query.joins
  have aliases := mapIdx_joins (f := fun join _ => joinAlias join) id (fun _ _ => rfl) query.joins
  simp only [wording, ← (binds _).count, sql_eq, written, sql_fragments, words, joined, aliases,
    distinct, List.isEmpty_map]
  simp only [Predicate.wording] at words
  rw [words]

/-- The rules of a smart playlist are a group. -/
theorem condition_ofSmart (smart : Smart) (context : Context) :
    (ofSmart smart context).condition =
      ofRule context.now 0 (.group smart.ruleset.conjunction smart.ruleset.rules) := by
  rw [ofSmart]
  cases smart.limit <;> rfl

theorem ofSmart_form (smart : Smart) (context : Context) :
    ofSmart smart.form context = { ofSmart smart context with
      condition := (ofSmart smart.form context).condition
      joins := (ofSmart smart context).joins.map
        (Option.map fun _ => (default : PersistentId).key) } := by
  -- The rules of a set have the joins and the warnings of a group.
  have joins := joinsOfRule_form (.group smart.ruleset.conjunction smart.ruleset.rules)
  have warnings := warningsOfRule_form (.group smart.ruleset.conjunction smart.ruleset.rules)
  simp only [Rule.form, joinsOfRule, warningsOfRule] at joins warnings
  rw [ofSmart, ofSmart, Smart.form]
  cases smart.limit with
  | none => simp only [ofRuleSet, RuleSet.form, joins, warnings]
  | some limit => simp only [ofRuleSet, RuleSet.form, joins, warnings]

theorem wording_ofSmart (smart : Smart) (context : Context) :
    (ofSmart smart.form context).wording = (ofSmart smart context).wording := by
  rw [ofSmart_form]
  refine wording_with _ ?_
  rw [condition_ofSmart, condition_ofSmart]
  exact wording_ofRule (.group smart.ruleset.conjunction smart.ruleset.rules)

/-- Smart playlists whose rules differ in their values alone have queries that differ in what they
bind alone. Each placeholder of a query stands where its value is meant. -/
theorem values_are_bound (context : Context) :
    (∀ a b : Smart, a.limit = b.limit → a.ruleset.form = b.ruleset.form →
      (ofSmart a context).wording = (ofSmart b context).wording) ∧
    ∀ smart : Smart,
      (ofSmart smart context).Binds (boundOfRules context.now smart.ruleset.rules) := by
  refine ⟨fun a b limits forms => ?_, fun smart => ?_⟩
  · have same : a.form = b.form := by rw [Smart.form, Smart.form, limits, forms]
    rw [← wording_ofSmart a, ← wording_ofSmart b, same]
  · have values : Fragment.values (ofSmart smart context).condition.fragments =
        boundOfRules context.now smart.ruleset.rules := by
      rw [condition_ofSmart, values_ofRule, Rule.bound]
    rw [← values]
    exact binds _

/-- In a playlist, and with a name in it. -/
def memberCalled (id : PersistentId) (name : String) : Smart where
  ruleset := ⟨.and, [.text ⟨.name, .strPos, .contains, [name]⟩,
    .playlist ⟨.playlistPersistentId, .pos, .is, some id⟩]⟩

theorem values_are_bound_quote :
    let plain := memberCalled ⟨1⟩ "Song"
    let hostile := memberCalled ⟨2⟩ "?' OR 1 = 1 --"
    plain.limit = hostile.limit ∧ plain.ruleset.form = hostile.ruleset.form ∧
      (ofSmart plain Store.epoch).wording = (ofSmart hostile Store.epoch).wording ∧
      (ofSmart hostile Store.epoch).Binds [.text "%?' OR 1 = 1 --%"] ∧
      (ofSmart hostile Store.epoch).parameters = [.integer 2, .text "%?' OR 1 = 1 --%"] := by
  refine ⟨rfl, by decide, ?_, ?_, by decide⟩
  · exact (values_are_bound Store.epoch).1 _ _ rfl (by decide)
  · exact (values_are_bound Store.epoch).2 (memberCalled ⟨2⟩ "?' OR 1 = 1 --")

end Query

end MusicLibrary
