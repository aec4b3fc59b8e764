import MusicLibrary.Proofs.Query.SmartTracks
import MusicLibrary.Proofs.Query.Thinning
import MusicLibrary.Proofs.Smart.StoredForm

/-! A stored smart playlist means what it meant before. The store leaves out rules that are not
understood, which the query takes to be true; so a conjunction does not miss them, but a disjunction
does, unless it has no other rules. The two queries are not the same, and the database may give tied
tracks in another order; a limit shows that where it cuts between them. -/

namespace MusicLibrary

namespace Smart

/-! Rules that keep their meaning. -/

/-- Whether unknown rules can be left out, as they can of a conjunction, and of a disjunction of
nothing else. -/
def Conjunction.missesNone (conjunction : Conjunction) (rules : List Rule) : Bool :=
  conjunction = .and || rules.all Rule.isUnknown || !rules.any Rule.isUnknown

/-- How many values a comparison uses. -/
def Operator.operands : Operator → Nat
  | .between => 2
  | _ => 1

/-- Whether a rule on dates asks the same of what the store keeps: an offset has whole seconds, and
the start of 1904 is not the last time, unless it is one that the comparison does not use. -/
def Condition.keepsDates (c : Condition (List Timestamp)) : Bool :=
  if c.operator = .within then c.value.all fun t => t.ms.toInt % 1000 = 0
  else !c.value.getLast?.any (·.ms.toInt = start1904) || c.operator.operands < c.value.length

mutual

def Rule.isDurable : Rule → Bool
  | .group conjunction rules => conjunction.missesNone rules && Rule.areDurable rules
  | .date c => c.keepsDates
  | _ => true
termination_by structural rule => rule

def Rule.areDurable : List Rule → Bool
  | [] => true
  | rule :: rest => rule.isDurable && Rule.areDurable rest
termination_by structural rules => rules

end

theorem Rule.areDurable_eq (rules : List Rule) :
    Rule.areDurable rules = rules.all Rule.isDurable := by
  induction rules with
  | nil => rfl
  | cons rule rest ih => rw [Rule.areDurable, ih, List.all_cons]

def RuleSet.isDurable (set : RuleSet) : Bool :=
  set.conjunction.missesNone set.rules && set.rules.all Rule.isDurable

end Smart

namespace Query

open Smart Predicate

/-! Dates. -/

/-- A comparison does not look at the values that it does not use. -/
theorem compareOperands_take {α : Type} (column : Track.Column) (operator : Operator)
    (negated : Bool) (wrap : α → Value) (before : α → α → Bool) (default : α) (values : List α) :
    compareOperands column operator negated
        (.ofList wrap before default (values.take operator.operands)) =
      compareOperands column operator negated (.ofList wrap before default values) := by
  have first : (values.take 1).headD default = values.headD default := by cases values <;> rfl
  cases operator with
  | between =>
    have pair : Operands.ofList wrap before default (values.take 2) =
        Operands.ofList wrap before default values := by
      match values with
      | [] | [_] | _ :: _ :: _ => rfl
    exact congrArg _ pair
  | _ => simp only [Operator.operands, compareOperands, first_ofList, first]

/-- A comparison of dates is one of numbers. -/
theorem datePredicate_points {operator : Operator} (points : operator ≠ .within) (field : Field)
    (sign : Sign) {times : List Timestamp} (some : times ≠ []) (now : Timestamp)
    (column : Track.Column) :
    datePredicate now column ⟨field, sign, operator, times⟩ =
      compareOperands column operator sign.isNegated
        (.ofList .integer (fun a b => decide (a < b)) 0 (times.map (·.ms))) := by
  cases times with
  | nil => exact absurd rfl some
  | cons first rest => cases operator <;> first | rfl | exact absurd rfl points

theorem datePredicate_stored {c : Condition (List Timestamp)} (kept : c.keepsDates = true)
    (now : Timestamp) (column : Track.Column) :
    datePredicate now column (c.bare.with (storedDates c.operator c.value)) =
      datePredicate now column c := by
  obtain ⟨field, sign, operator, times⟩ := c
  rw [Condition.keepsDates] at kept
  by_cases within : operator = .within
  · subst within
    rw [if_pos rfl, List.all_eq_true] at kept
    rw [storedDates_within fun t mem => of_decide_eq_true (kept t mem)]
    rfl
  · rw [if_neg within, Bool.or_eq_true, Bool.not_eq_true', decide_eq_true_iff] at kept
    rw [storedDates, if_neg within]
    split
    · rename_i start
      have unused : operator.operands < times.length := kept.resolve_left (by simp [start])
      have used : 0 < operator.operands := by cases operator <;> exact Nat.succ_pos _
      have same : times.dropLast.take operator.operands = times.take operator.operands := by
        rw [List.dropLast_eq_take, List.take_take, Nat.min_eq_left (by omega)]
      have whole : times ≠ [] := List.ne_nil_of_length_pos (by omega)
      have rest : times.dropLast ≠ [] := List.ne_nil_of_length_pos (by
        rw [List.length_dropLast]
        omega)
      refine (datePredicate_points within field sign rest now column).trans ?_
      rw [datePredicate_points within field sign whole, ← compareOperands_take, ← List.map_take,
        same, List.map_take, compareOperands_take]
    · rfl

/-! Joins. -/

theorem joinsOfRules_stored {rules : List Rule}
    (each : ∀ rule ∈ rules, joinsOfRule rule = (rule.stored?.map joinsOfRule).getD []) :
    joinsOfRules (storedRules rules) = joinsOfRules rules := by
  induction rules with
  | nil => rfl
  | cons rule rest ih =>
    have first := each rule List.mem_cons_self
    have others := ih fun r mem => each r (List.mem_cons_of_mem rule mem)
    rw [storedRules, joinsOfRules, first]
    cases rule.stored? with
    | none => exact others
    | some stored => rw [joinsOfRules, others]; rfl

theorem joinsOfRule_stored (rule : Rule) :
    joinsOfRule rule = (rule.stored?.map joinsOfRule).getD [] := by
  induction rule using Rule.induct with
  | group conjunction rules ih => exact (joinsOfRules_stored ih).symm
  | _ c => rfl

/-! Trees. -/

theorem thinned_ofRules {rules : List Rule} (now : Timestamp)
    (each : ∀ rule ∈ rules, ∀ stored, rule.stored? = some stored → ∀ join,
      Alike (ofRule now join rule) (ofRule now join stored)) (join : Nat) :
    Thinned (ofRules now join rules) (ofRules now join (storedRules rules)) := by
  induction rules generalizing join with
  | nil => exact .nil
  | cons rule rest ih =>
    have others := ih fun r mem => each r (List.mem_cons_of_mem rule mem)
    have joins := joinsOfRule_stored rule
    rw [storedRules, ofRules]
    cases kept : rule.stored? with
    | none =>
      -- Only an unknown rule is left out; its condition is always true, and it has no join.
      have unknown : rule.isUnknown = true := by rw [← Rule.isNone_stored?, kept]; rfl
      cases rule with
      | unknown c => exact .drop (others join)
      | _ => cases unknown
    | some stored =>
      rw [kept] at joins
      rw [ofRules]
      refine .keep (each rule List.mem_cons_self stored kept join) ?_
      rw [joins]
      exact others _

theorem length_ofRules (now : Timestamp) (join : Nat) (rules : List Rule) :
    (ofRules now join rules).length = rules.length := by
  induction rules generalizing join with
  | nil => rfl
  | cons rule rest ih => rw [ofRules, List.length_cons, ih, List.length_cons]

/-- A disjunction that misses no rule has lost none of them, or all. -/
theorem missed_of_missesNone {conjunction : Conjunction} {rules : List Rule}
    (h : conjunction.missesNone rules = true) (now : Timestamp) (join : Nat) :
    conjunction = .or → ofRules now join (storedRules rules) = [] ∨
      (ofRules now join (storedRules rules)).length = (ofRules now join rules).length := by
  rintro rfl
  rw [Conjunction.missesNone, decide_eq_false (by decide), Bool.false_or, Bool.or_eq_true,
    Bool.not_eq_true', List.all_eq_true, List.any_eq_false] at h
  rw [length_ofRules, length_ofRules, storedRules_eq]
  refine h.imp (fun all => ?_) fun none => ?_
  · have empty : rules.filterMap Rule.stored? = [] := List.filterMap_eq_nil_iff.2 fun rule mem =>
      Option.isNone_iff_eq_none.1 ((Rule.isNone_stored? rule).trans (all rule mem))
    rw [empty]
    rfl
  · refine List.filterMap_length_eq_length.2 fun rule mem => ?_
    rw [← Option.not_isNone, Rule.isNone_stored?]
    simpa using none rule mem

theorem alike_ofRule (now : Timestamp) {rule : Rule} (durable : rule.isDurable = true)
    {stored : Rule} (kept : rule.stored? = some stored) (join : Nat) :
    Alike (ofRule now join rule) (ofRule now join stored) := by
  induction rule using Rule.induct generalizing stored join with
  | group conjunction rules ih =>
    cases kept
    rw [Rule.isDurable, Rule.areDurable_eq, Bool.and_eq_true, List.all_eq_true] at durable
    have thinned := thinned_ofRules now
      (fun rule mem stored kept join => ih rule mem (durable.2 rule mem) kept join) join
    exact alike_groupPredicate thinned (missed_of_missesNone durable.1 now join)
  | date c =>
    cases kept
    have same : ofRule now join (.date (c.bare.with (storedDates c.operator c.value))) =
        ofRule now join (.date c) :=
      congrArg (onColumn c.field) (funext fun column => datePredicate_stored durable now column)
    rw [same]
    exact .refl _
  | unknown c => cases kept
  | _ c =>
    cases kept
    exact .refl _

section

variable {query : Query} {condition : Predicate} (alike : Alike query.condition condition)
  (warnings : List String) (library : Library)
include alike

theorem height_of_alike :
    ({ query with condition, warnings } : Query).height ≤ query.height := by
  have height := alike.height
  change 1 + max 3 condition.height + query.joins.length ≤ _
  rw [Query.height]
  omega

theorem isRunnable_of_alike (runnable : query.isRunnable = true) :
    ({ query with condition, warnings } : Query).isRunnable = true := by
  simp only [isRunnable, parameters_eq, alike.values, Bool.and_eq_true] at runnable ⊢
  obtain ⟨⟨⟨tables, depth⟩, bound⟩, count⟩ := runnable
  have height := height_of_alike alike warnings
  exact ⟨⟨⟨tables, decide_eq_true (Nat.le_trans height (of_decide_eq_true depth))⟩, bound⟩, count⟩

theorem search_of_alike :
    ({ query with condition, warnings } : Query).search library = query.search library := by
  refine congrArg (filter? · library.tracks) (funext fun track => ?_)
  rw [keeps?, keeps?, testAll_arranged_congr (alike.pending _)]

/-- A query that can be run yields the same with a condition that is treated alike, if tied tracks
come in the same order. -/
theorem run?_of_alike (runnable : query.isRunnable = true) {plan plan' : Plan}
    (ties : plan'.arrange { query with condition, warnings } library (query.candidates library) =
      plan.arrange query library (query.candidates library)) :
    ({ query with condition, warnings } : Query).run? plan' library = query.run? plan library := by
  rw [run?, run?, runnable, isRunnable_of_alike alike warnings runnable,
    search_of_alike alike warnings library]
  cases search : query.search library with
  | none => rfl
  | some tracks =>
    have rows : ({ query with condition, warnings } : Query).ordered plan' library tracks =
        query.ordered plan library tracks := by
      rw [eq_matching_of_search search]
      exact ties
    rw [Option.map_some, Option.map_some, rows]
    rfl

end

end Query

namespace Smart

open Query Predicate

/-- The query of what is kept differs from the query of the playlist in its condition alone. -/
theorem ofSmart_stored (smart : Smart) (context : Context) :
    ofSmart smart.stored context =
      { ofSmart smart context with
        condition := groupPredicate smart.ruleset.conjunction
          (ofRules context.now 0 (storedRules smart.ruleset.rules))
        warnings := warningsOfRules (storedRules smart.ruleset.rules) } := by
  obtain ⟨⟨conjunction, rules⟩, limit, live, checked⟩ := smart
  have joins := joinsOfRules_stored fun rule (_ : rule ∈ rules) => joinsOfRule_stored rule
  cases limit <;>
    simp only [ofSmart, ofRuleSet, Smart.stored, RuleSet.stored, joins]

theorem alike_stored {smart : Smart} (durable : smart.ruleset.isDurable = true)
    (context : Context) :
    Alike (ofSmart smart context).condition (ofSmart smart.stored context).condition := by
  rw [RuleSet.isDurable, Bool.and_eq_true, List.all_eq_true] at durable
  have thinned := thinned_ofRules context.now
    (fun rule mem stored kept join =>
      alike_ofRule context.now (durable.2 rule mem) kept join) 0
  have same : (ofSmart smart context).condition =
      groupPredicate smart.ruleset.conjunction (ofRules context.now 0 smart.ruleset.rules) := by
    rw [ofSmart]
    split <;> rfl
  rw [same, ofSmart_stored]
  exact alike_groupPredicate thinned (missed_of_missesNone durable.1 context.now 0)

/-- The playlist lists the given tracks, in some order. -/
def Yields (smart : Smart) (plan : Plan) (library : Library) (context : Context)
    (tracks : List Track) : Prop :=
  ∃ answer, smart.tracks? plan library context = some answer ∧ answer.Perm tracks

/-- One playlist may stand for another one in a library: as far as the order of tied tracks lets
that be said, it lists the same tracks. -/
structure StandsFor (other smart : Smart) (library : Library) (context : Context) : Prop where
  answered : ∀ plan, (smart.tracks? plan library context).isSome
  /-- The lists are the same if the database gives the tracks for both in the same order. -/
  aligned : ∀ plan plan' : Plan, (∀ tracks,
      plan'.arrange (ofSmart other context) library tracks =
        plan.arrange (ofSmart smart context) library tracks) →
    other.tracks? plan' library context = smart.tracks? plan library context
  /-- The lists are the same if no two of the tracks are tied. -/
  apart : (ofSmart smart context).TellsApart ((ofSmart smart context).candidates library) →
    ∀ plan plan', other.tracks? plan' library context = smart.tracks? plan library context
  /-- The tracks are the same if the caps do not cut between tied ones. -/
  cut : ∀ kept rest, ((ofSmart smart context).candidates library).Perm (kept ++ rest) →
    (ofSmart smart context).CutsBetween kept rest →
    ∀ plan, smart.Yields plan library context kept ∧ other.Yields plan library context kept
  /-- Without a limit the tracks are the same. -/
  whole : smart.limit = none → library.HasTotals → ∀ plan,
    smart.Yields plan library context ((ofSmart smart context).candidates library) ∧
      other.Yields plan library context ((ofSmart smart context).candidates library)
  /-- Whatever list one may give for some order of tied tracks, the other one may. -/
  possible : ∀ tracks, (∃ plan, other.tracks? plan library context = some tracks) ↔
    ∃ plan, smart.tracks? plan library context = some tracks

section

variable {smart : Smart} (durable : smart.ruleset.isDurable = true) (library : Library)
  {context : Context} (runnable : (ofSmart smart context).isRunnable = true)
include durable runnable

theorem tracks?_stored {plan plan' : Plan}
    (ties : plan'.arrange (ofSmart smart.stored context) library
        ((ofSmart smart context).candidates library) =
      plan.arrange (ofSmart smart context) library
        ((ofSmart smart context).candidates library)) :
    smart.stored.tracks? plan' library context = smart.tracks? plan library context := by
  have alike := alike_stored durable context
  rw [ofSmart_stored] at ties alike
  rw [Smart.tracks?, Smart.tracks?, ofSmart_stored]
  exact run?_of_alike alike _ library runnable ties

/-- What a plan does with the stored form, another one does with the playlist. -/
theorem tracks?_stored_following (plan : Plan) :
    smart.stored.tracks? plan library context =
      smart.tracks? (plan.following (ofSmart smart.stored context)) library context := by
  have order : (ofSmart smart context).order = (ofSmart smart.stored context).order := by
    rw [ofSmart_stored]
  refine tracks?_stored durable library runnable ?_
  rw [Plan.arrange_following plan order]

omit durable in
/-- A playlist lists what its caps keep where they part tracks of different rank. -/
theorem yields_of_cutsBetween (short : (ofSmart smart context).condition.IsShort)
    {kept rest : List Track} (all : ((ofSmart smart context).candidates library).Perm (kept ++ rest))
    (cut : (ofSmart smart context).CutsBetween kept rest) (plan : Plan) :
    smart.Yields plan library context kept :=
  ⟨_, run?_eq_matching runnable short plan library,
    cut.capped_perm ((plan.perm _ _ _).trans all) (plan.respects _ _ _)⟩

theorem standsFor_stored (short : (ofSmart smart context).condition.IsShort) :
    smart.stored.StandsFor smart library context := by
  have order : (ofSmart smart.stored context).order = (ofSmart smart context).order := by
    rw [ofSmart_stored]
  have both : ∀ kept rest, ((ofSmart smart context).candidates library).Perm (kept ++ rest) →
      (ofSmart smart context).CutsBetween kept rest → ∀ plan,
        smart.Yields plan library context kept ∧ smart.stored.Yields plan library context kept := by
    intro kept rest all cut plan
    refine ⟨yields_of_cutsBetween library runnable short all cut plan, ?_⟩
    rw [Yields, tracks?_stored_following durable library runnable]
    exact yields_of_cutsBetween library runnable short all cut _
  exact {
    answered := fun plan => by
      rw [Smart.tracks?, run?_eq_matching runnable short plan]
      rfl
    aligned := fun plan plan' aligned => tracks?_stored durable library runnable (aligned _)
    apart := fun apart plan plan' =>
      tracks?_stored durable library runnable (plan.arrange_eq plan' order apart)
    cut := both
    whole := fun unlimited totals => by
      refine both _ [] (by rw [List.append_nil]) (cutsBetween_nil ?_ ?_ ?_ totals
        (candidates_sublist _ _)) <;> rw [ofSmart, unlimited] <;> rfl
    possible := fun tracks => by
      constructor
      · rintro ⟨plan, answer⟩
        exact ⟨_, (tracks?_stored_following durable library runnable plan).symm.trans answer⟩
      · rintro ⟨plan, answer⟩
        refine ⟨plan.following (ofSmart smart context), Eq.trans ?_ answer⟩
        refine tracks?_stored durable library runnable ?_
        rw [Plan.arrange_following plan order] }

end

/-- The two texts of a playlist, from its limit and the heads and the payloads of its rules. -/
def recordTexts (limit : Option Limit) (conjunction : Conjunction)
    (parts : List (Head × List UInt8)) : String × String :=
  (String.ofList (Text.Base64.encode (Info.encode { limit })),
   String.ofList (Text.Base64.encode (encodeRuleSet conjunction
     (parts.map fun part => encodeBlock part.1 false part.2))))

/-- The playlist that is read from these texts. -/
def readParts (limit : Option Limit) (conjunction : Conjunction)
    (parts : List (Head × List UInt8)) : Smart where
  ruleset := ⟨conjunction, parts.map fun part =>
    Block.rule decodeCriteria ⟨recoded part.1, some part.2⟩⟩
  limit := limit

theorem blocks_parts {parts : List (Head × List UInt8)}
    (short : ∀ part ∈ parts, part.2.length < 4294967296) :
    blocks parts.length (parts.map fun part => encodeBlock part.1 false part.2).flatten =
      parts.map fun part => ⟨recoded part.1, some part.2⟩ := by
  induction parts with
  | nil => rfl
  | cons part rest ih =>
    have others := ih fun next mem => short next (List.mem_cons_of_mem part mem)
    rw [List.map_cons, List.flatten_cons, List.length_cons,
      blocks_encodeBlock (short part List.mem_cons_self), others, List.map_cons]

theorem decodeBase64_encode (bytes : List UInt8) :
    decodeBase64 (String.ofList (Text.Base64.encode bytes)) = .ok bytes :=
  decodeBase64_spaced (String.toList_ofList ▸ .refl _)

section

variable {limit : Option Limit} (whole : ∀ l, limit = some l → l.IsWhole)
  {parts : List (Head × List UInt8)} (short : ∀ part ∈ parts, part.2.length < 4294967296)
  (count : parts.length < 4294967296)
include whole short count

theorem decodeTexts_recordTexts (conjunction : Conjunction) :
    decodeTexts (recordTexts limit conjunction parts).1 (recordTexts limit conjunction parts).2 =
      .ok (readParts limit conjunction parts) := by
  have info : Info.decode (Info.encode { limit }) = .ok { limit } := Info.decode_encode whole
  have long : headerWidth ≤ (encodeRuleSet conjunction
      (parts.map fun part => encodeBlock part.1 false part.2)).length := by
    rw [length_encodeRuleSet]
    exact Nat.le_add_right _ _
  rw [decodeTexts, recordTexts, decodeBase64_encode, decodeBase64_encode]
  change decodeRecords (Info.encode { limit }) (encodeRuleSet conjunction
    (parts.map fun part => encodeBlock part.1 false part.2)) = _
  rw [decodeRecords, info, decodeCriteria_eq, checkHeader_of_long long, readBlocks,
    readConjunction_encodeRuleSet, readCount_encodeRuleSet, drop_encodeRuleSet, List.length_map,
    fit32_eq count, blocks_parts short, List.map_map]
  rfl

end

def origin : Context := ⟨⟨0⟩, 1⟩

/-- What the query of a playlist yields, read off without a search where it finds one track at the
most. -/
def Lists (smart : Smart) (library : Library) (tracks : List Track) : Prop :=
  let query := ofSmart smart origin
  query.isRunnable = true ∧ query.condition.IsShort ∧ (query.candidates library).length ≤ 1 ∧
    query.capped (query.candidates library) = tracks

instance (smart : Smart) (library : Library) (tracks : List Track) :
    Decidable (Lists smart library tracks) := inferInstanceAs (Decidable (_ ∧ _ ∧ _ ∧ _))

theorem Lists.tracks? {smart : Smart} {library : Library} {tracks : List Track}
    (h : Lists smart library tracks) (plan : Plan) :
    smart.tracks? plan library origin = some tracks := by
  obtain ⟨runnable, short, single, rfl⟩ := h
  rw [Smart.tracks?, run?_eq_matching runnable short, ordered_matching,
    plan.arrange_of_length_le _ _ single]

def jazz : Track := { id := ⟨1⟩, location := some "file:///1", genre := some "Jazz" }

def jazzLibrary : Library := ⟨[jazz], []⟩

/-- A rule that is not understood, beside one on the genre. -/
def cloudAndGenre (genre : String) : List (Head × List UInt8) :=
  [(⟨.cloudStatus, .pos, .is, ()⟩, []),
   (⟨.genre, .strPos, .is, ()⟩, Text.Utf16.encode genre)]

/-- The texts are read as a playlist, and what a plan makes of it differs from what the plan makes
of its stored form. -/
def Strays (plan : Plan) (limit : Option Limit) (conjunction : Conjunction)
    (parts : List (Head × List UInt8)) (library : Library)
    (tracks others : Option (List Track)) : Prop :=
  let texts := recordTexts limit conjunction parts
  let smart := readParts limit conjunction parts
  decodeTexts texts.1 texts.2 = .ok smart ∧ smart.tracks? plan library origin = tracks ∧
    ofBytes smart.toBytes = .ok smart.stored ∧
      smart.stored.tracks? plan library origin = others ∧ tracks ≠ others

theorem strays {plan : Plan} {limit : Option Limit} {conjunction : Conjunction}
    {parts : List (Head × List UInt8)} {library : Library} {tracks others : Option (List Track)}
    (whole : ∀ l, limit = some l → l.IsWhole)
    (short : ∀ part ∈ parts, part.2.length < 4294967296) (count : parts.length < 4294967296)
    (fits : (encodeCriteria (readParts limit conjunction parts).ruleset).length < 4294967296)
    (direct : (readParts limit conjunction parts).tracks? plan library origin = tracks)
    (stored : (readParts limit conjunction parts).stored.tracks? plan library origin = others)
    (differ : tracks ≠ others) : Strays plan limit conjunction parts library tracks others := by
  have read := decodeTexts_recordTexts whole short count conjunction
  have readable := readable_of_decodeTexts read
  exact ⟨read, direct, (ofBytes_toBytes_stored_iff readable.1 readable.2).2 fits, stored, differ⟩

/-- A track that was added as early as a word can tell. -/
def earliest : Track :=
  { id := ⟨1⟩, location := some "file:///1", dateAdded := some ⟨-9223372036854775808⟩ }

/-- The time between two starts of 1904. -/
def start1904Twice : List (Head × List UInt8) :=
  [(⟨.dateAdded, .pos, .is, ()⟩, ({ flagOrUnit := 1 } : Slots).encode)]

def longestOffset : List (Head × List UInt8) :=
  [(⟨.dateAdded, .pos, .within, ()⟩, (Slots.relative (-9223372036854775808) 1).encode)]

def manyClouds : List (Head × List UInt8) :=
  List.replicate 1000 (⟨.cloudStatus, .pos, .is, ()⟩, [])

/-- A track of the same genre, and with the same name, which is none. -/
def otherJazz : Track := { id := ⟨2⟩, location := some "file:///2", genre := some "Jazz" }

def oneByName : Limit := ⟨.items 1, .name, false⟩

theorem isWhole_oneByName : oneByName.IsWhole where
  cap := ⟨by decide, by decide⟩
  field := by simp [oneByName, Canonical]

/-- The plan that turns tied tracks round where a query has a single condition. -/
def turning : Plan where
  arrange query library tracks := Plan.stable.arrange query library
    (if query.condition.conjuncts.length = 1 then tracks.reverse else tracks)
  perm query library tracks := by
    refine (Plan.stable.perm _ _ _).trans ?_
    split
    · exact List.reverse_perm tracks
    · exact .refl _
  respects query library _ := Plan.stable.respects query library _

theorem tracks?_turning {smart : Smart} {library : Library} {tracks : List Track}
    (runnable : (ofSmart smart origin).isRunnable = true)
    (short : (ofSmart smart origin).condition.IsShort)
    (tied : ∀ a ∈ (ofSmart smart origin).candidates library,
      ∀ b ∈ (ofSmart smart origin).candidates library, (ofSmart smart origin).mayPrecede a b = true)
    (cut : (ofSmart smart origin).capped
      (if (ofSmart smart origin).condition.conjuncts.length = 1 then
        ((ofSmart smart origin).candidates library).reverse
      else (ofSmart smart origin).candidates library) = tracks) :
    smart.tracks? turning library origin = some tracks := by
  rw [Smart.tracks?, run?_eq_matching runnable short, ordered_matching, turning,
    Plan.stable_arrange, cut]
  split
  · exact List.pairwise_of_forall_mem_list fun a left b right =>
      tied a (List.mem_reverse.mp left) b (List.mem_reverse.mp right)
  · exact List.pairwise_of_forall_mem_list tied

end Smart

end MusicLibrary
