import Mathlib.Algebra.Group.Nat.Defs
import Mathlib.Data.List.Nodup
import MusicLibrary.Query.Basic

/-! The joins of a query. Each rule on a playlist has a join of its own, counted from the left of
the tree, and no two joins share an alias; so the test of a rule is bound to its own playlist. -/

namespace MusicLibrary

namespace Query

/-! Aliases. -/

/-- The number that letters stand for. -/
def ofLetters (cs : List Char) : Nat := cs.foldl (fun n c => 26 * n + (c.toNat - 96)) 0

theorem toNat_letter {k : Nat} (h : k < 26) : (Char.ofNat (97 + k)).toNat = 97 + k := by
  revert k
  decide

theorem ofLetters_letters (n : Nat) : ofLetters (letters n) = n := by
  induction n using letters.induct with
  | case1 => rw [letters, if_pos rfl]; rfl
  | case2 n positive ih =>
    have less : (n - 1) % 26 < 26 := Nat.mod_lt _ (by decide)
    rw [letters, if_neg positive, ofLetters, List.foldl_append]
    change 26 * ofLetters (letters ((n - 1) / 26)) + ((Char.ofNat _).toNat - 96) = n
    rw [ih, toNat_letter less]
    omega

theorem letters_injective : Function.Injective letters :=
  Function.LeftInverse.injective ofLetters_letters

theorem alias_injective {m n : Nat}
    (h : "pt" ++ String.ofList (letters m) = "pt" ++ String.ofList (letters n)) : m = n := by
  rw [← String.toList_inj, String.toList_append, String.toList_append, List.append_cancel_left_eq,
    String.toList_ofList, String.toList_ofList] at h
  exact letters_injective h

theorem joinAlias_injective : Function.Injective joinAlias :=
  fun _ _ h => Nat.succ.inj (alias_injective h)

/-- The alias of a join whose index is a word; after the last word comes the first one. -/
def joinAliasOfWord (join : UInt64) : String := "pt" ++ String.ofList (letters (join + 1).toNat)

theorem joinAliasOfWord_eq {join : UInt64} (h : join.toNat + 1 < 2 ^ 64) :
    joinAliasOfWord join = joinAlias join.toNat := by
  rw [joinAliasOfWord, joinAlias, UInt64.toNat_add, UInt64.toNat_one, Nat.mod_eq_of_lt h]

theorem joinAliasOfWord_injective : Function.Injective joinAliasOfWord := by
  intro i j h
  exact (UInt64.add_left_inj 1).1 (UInt64.toNat_inj.1 (alias_injective h))

end Query

/-! Trees. -/

namespace Tree

/-- What a path leads to in a tree. -/
def follow (parts : α → List α) : α → List Nat → Option α
  | a, [] => some a
  | a, i :: path => (parts a)[i]?.bind fun part => follow parts part path

/-- A leaf of the i-th part of a tree, with its path in the tree. -/
def below (i : Nat) (leaf : List Nat × β) : List Nat × β := (i :: leaf.1, leaf.2)

/-- The leaves of all trees are listed with the paths to them: a leaf itself, or else the leaves of
the parts, from left to right. -/
structure Lists (parts : α → List α) (leaf : β → α) (leaf? : α → Option β)
    (leaves : α → List (List Nat × β)) : Prop where
  leaf_iff : ∀ a b, leaf? a = some b ↔ a = leaf b
  leaves_eq : ∀ a, leaves a = ((leaf? a).map ([], ·)).toList ++
    (parts a).zipIdx.flatMap fun part => (leaves part.1).map (below part.2)

theorem Lists.mem_iff {parts : α → List α} {leaf : β → α} {leaf? : α → Option β}
    {leaves : α → List (List Nat × β)} (h : Lists parts leaf leaf? leaves) {a : α}
    {path : List Nat} {b : β} : (path, b) ∈ leaves a ↔ follow parts a path = some (leaf b) := by
  induction path generalizing a with
  | nil =>
    rw [h.leaves_eq]
    simp [follow, below, h.leaf_iff]
  | cons i path ih =>
    rw [h.leaves_eq, follow]
    cases part : (parts a)[i]? with
    | none => simp [below, List.mem_zipIdx_iff_getElem?, part]
    | some part => simp [below, List.mem_zipIdx_iff_getElem?, part, ih]

end Tree

namespace Smart.Rule

def parts : Rule → List Rule
  | .group _ rules => rules
  | _ => []

def at? (rule : Rule) (path : List Nat) : Option Rule := Tree.follow parts rule path

/-- What a rule asks of playlists. -/
def membership? : Rule → Option (Condition (Option PersistentId))
  | .playlist c => some c
  | _ => none

mutual

/-- The rules on playlists, with the paths to them, from left to right. -/
def memberships : Rule → List (List Nat × Condition (Option PersistentId))
  | .group _ rules => membershipsFrom 0 rules
  | .playlist c => [([], c)]
  | _ => []
termination_by structural rule => rule

def membershipsFrom (first : Nat) : List Rule → List (List Nat × Condition (Option PersistentId))
  | [] => []
  | rule :: rest => rule.memberships.map (Tree.below first) ++ membershipsFrom (first + 1) rest
termination_by structural rules => rules

end

theorem membershipsFrom_eq (first : Nat) (rules : List Rule) :
    membershipsFrom first rules =
      (rules.zipIdx first).flatMap fun part => part.1.memberships.map (Tree.below part.2) := by
  induction rules generalizing first with
  | nil => rfl
  | cons rule rest ih => rw [membershipsFrom, ih, List.zipIdx_cons, List.flatMap_cons]

theorem lists_memberships : Tree.Lists parts playlist membership? memberships where
  leaf_iff rule c := by cases rule <;> simp [membership?]
  leaves_eq rule := by
    cases rule with
    | group conjunction rules => exact membershipsFrom_eq 0 rules
    | _ => rfl

theorem mem_memberships_iff {rule : Rule} {path : List Nat}
    {c : Condition (Option PersistentId)} :
    (path, c) ∈ rule.memberships ↔ rule.at? path = some (.playlist c) := lists_memberships.mem_iff

theorem le_of_mem_membershipsFrom {first : Nat} {rules : List Rule}
    {leaf : List Nat × Condition (Option PersistentId)} (mem : leaf ∈ membershipsFrom first rules) :
    ∃ i path, leaf.1 = i :: path ∧ first ≤ i := by
  rw [membershipsFrom_eq, List.mem_flatMap] at mem
  obtain ⟨part, among, mem⟩ := mem
  obtain ⟨inner, _, rfl⟩ := List.mem_map.1 mem
  exact ⟨part.2, inner.1, rfl, List.le_snd_of_mem_zipIdx among⟩

/-- What is in a part comes before what is in the parts behind it. -/
theorem membershipsFrom_ordered {rules : List Rule}
    (each : ∀ rule ∈ rules, rule.memberships.Pairwise (·.1 < ·.1)) (first : Nat) :
    (membershipsFrom first rules).Pairwise (·.1 < ·.1) := by
  induction rules generalizing first with
  | nil => exact List.Pairwise.nil
  | cons rule rest ih =>
    obtain ⟨own, others⟩ := List.forall_mem_cons.1 each
    rw [membershipsFrom, List.pairwise_append]
    refine ⟨?_, ih others (first + 1), ?_⟩
    · rw [List.pairwise_map]
      exact own.imp fun less => List.cons_lt_cons_iff.2 (.inr ⟨rfl, less⟩)
    · intro a mem_a b mem_b
      obtain ⟨inner, _, rfl⟩ := List.mem_map.1 mem_a
      obtain ⟨i, path, place, later⟩ := le_of_mem_membershipsFrom mem_b
      rw [place]
      exact List.cons_lt_cons_iff.2 (.inl later)

theorem memberships_ordered (rule : Rule) : rule.memberships.Pairwise (·.1 < ·.1) := by
  induction rule using Rule.induct with
  | group conjunction rules ih => exact membershipsFrom_ordered ih 0
  | playlist c => exact List.pairwise_singleton _ _
  | _ => exact List.Pairwise.nil

end Smart.Rule

namespace Query

open Smart

namespace Predicate

def parts : Predicate → List Predicate
  | .group _ parts => parts
  | _ => []

def at? (p : Predicate) (path : List Nat) : Option Predicate := Tree.follow parts p path

/-- The join that a condition tests, and what it is to find. -/
def joined? : Predicate → Option (Nat × Bool)
  | .joined join found => some (join, found)
  | _ => none

mutual

/-- The tests of joins, with the paths to them, from left to right. -/
def tests : Predicate → List (List Nat × Nat × Bool)
  | .group _ parts => testsFrom 0 parts
  | .joined join found => [([], join, found)]
  | _ => []
termination_by structural p => p

def testsFrom (first : Nat) : List Predicate → List (List Nat × Nat × Bool)
  | [] => []
  | p :: rest => p.tests.map (Tree.below first) ++ testsFrom (first + 1) rest
termination_by structural parts => parts

end

theorem testsFrom_eq (first : Nat) (parts : List Predicate) :
    testsFrom first parts =
      (parts.zipIdx first).flatMap fun part => part.1.tests.map (Tree.below part.2) := by
  induction parts generalizing first with
  | nil => rfl
  | cons p rest ih => rw [testsFrom, ih, List.zipIdx_cons, List.flatMap_cons]

theorem lists_tests :
    Tree.Lists parts (fun test : Nat × Bool => .joined test.1 test.2) joined? tests where
  leaf_iff p test := by cases p <;> simp [joined?, Prod.ext_iff]
  leaves_eq p := by
    cases p with
    | group conjunction parts => exact testsFrom_eq 0 parts
    | _ => rfl

theorem mem_tests_iff {p : Predicate} {path : List Nat} {join : Nat} {found : Bool} :
    (path, join, found) ∈ p.tests ↔ p.at? path = some (.joined join found) := lists_tests.mem_iff

end Predicate

/-! Rules. -/

/-- The tests that rules on playlists need when their joins are counted from a first one on. -/
def numbered (join : Nat) (rules : List (List Nat × Condition (Option PersistentId))) :
    List (List Nat × Nat × Bool) :=
  rules.mapIdx fun k rule =>
    (rule.1, join + k, rule.2.value.isSome != rule.2.sign.isNegated)

theorem numbered_append (join : Nat) (a b : List (List Nat × Condition (Option PersistentId))) :
    numbered join (a ++ b) = numbered join a ++ numbered (join + a.length) b := by
  simp [numbered, List.mapIdx_append, Nat.add_assoc, Nat.add_comm a.length]

theorem numbered_below (join first : Nat)
    (rules : List (List Nat × Condition (Option PersistentId))) :
    numbered join (rules.map (Tree.below first)) =
      (numbered join rules).map (Tree.below first) := by
  apply List.ext_getElem?
  intro k
  simp [numbered, Tree.below, Function.comp_def]

theorem mem_numbered {k : Nat} {rules : List (List Nat × Condition (Option PersistentId))}
    {path : List Nat} {found : Bool} :
    (path, k, found) ∈ numbered 0 rules ↔
      ∃ c, rules[k]? = some (path, c) ∧ found = (c.value.isSome != c.sign.isNegated) := by
  simp only [numbered, List.mem_iff_getElem?, List.getElem?_mapIdx, Option.map_eq_some_iff,
    Prod.mk.injEq, Nat.zero_add]
  constructor
  · rintro ⟨i, ⟨path, c⟩, there, rfl, rfl, rfl⟩
    exact ⟨c, there, rfl⟩
  · rintro ⟨c, there, rfl⟩
    exact ⟨k, (path, c), there, rfl, rfl, rfl⟩

theorem joinsOfRules_memberships {rules : List Rule}
    (each : ∀ rule ∈ rules,
      joinsOfRule rule = rule.memberships.map (·.2.value.map PersistentId.key)) (first : Nat) :
    joinsOfRules rules =
      (Rule.membershipsFrom first rules).map (·.2.value.map PersistentId.key) := by
  induction rules generalizing first with
  | nil => rfl
  | cons rule rest ih =>
    obtain ⟨own, others⟩ := List.forall_mem_cons.1 each
    rw [joinsOfRules, Rule.membershipsFrom, List.map_append, List.map_map, own,
      ih others (first + 1)]
    rfl

theorem joinsOfRule_memberships (rule : Rule) :
    joinsOfRule rule = rule.memberships.map (·.2.value.map PersistentId.key) := by
  induction rule using Rule.induct with
  | group conjunction rules ih => exact joinsOfRules_memberships ih 0
  | _ => rfl

theorem length_joinsOfRule (rule : Rule) :
    (joinsOfRule rule).length = rule.memberships.length := by
  rw [joinsOfRule_memberships, List.length_map]

theorem tests_groupPredicate (conjunction : Conjunction) (parts : List Predicate) :
    (groupPredicate conjunction parts).tests = Predicate.testsFrom 0 parts := by
  cases parts <;> rfl

theorem tests_onColumn {field : Smart.Field} {predicate : Track.Column → Predicate}
    (none : ∀ column, (predicate column).tests = []) : (onColumn field predicate).tests = [] := by
  unfold onColumn
  split
  · exact none _
  · rfl

theorem tests_compareOperands (column : Track.Column) (operator : Operator) (negated : Bool)
    (operands : Operands) : (compareOperands column operator negated operands).tests = [] := by
  cases operator <;> rfl

theorem tests_textPredicate (column : Track.Column) (c : Condition (List String)) :
    (textPredicate column c).tests = [] := by
  obtain ⟨field, sign, operator, _ | ⟨first, rest⟩⟩ := c
  · rfl
  · cases operator <;> rfl

theorem tests_integerPredicate (column : Track.Column) (c : Condition (List Int64)) :
    (integerPredicate column c).tests = [] := by
  unfold integerPredicate
  split
  · rfl
  · exact tests_compareOperands _ _ _ _

theorem tests_datePredicate (now : Timestamp) (column : Track.Column)
    (c : Condition (List Timestamp)) : (datePredicate now column c).tests = [] := by
  unfold datePredicate
  split
  · rfl
  · exact tests_integerPredicate _ _

theorem testsFrom_ofRules {now : Timestamp} {rules : List Rule}
    (each : ∀ rule ∈ rules, ∀ join,
      (ofRule now join rule).tests = numbered join rule.memberships) (join first : Nat) :
    Predicate.testsFrom first (ofRules now join rules) =
      numbered join (Rule.membershipsFrom first rules) := by
  induction rules generalizing join first with
  | nil => rfl
  | cons rule rest ih =>
    obtain ⟨own, others⟩ := List.forall_mem_cons.1 each
    -- The rest counts its joins on from those of the rule.
    rw [ofRules, Predicate.testsFrom, Rule.membershipsFrom, numbered_append, numbered_below,
      List.length_map, own, ih others, length_joinsOfRule]

/-- A condition tests the joins of its rule in turn, where the rule asks for a playlist, and no
other ones. -/
theorem tests_ofRule (now : Timestamp) (join : Nat) (rule : Rule) :
    (ofRule now join rule).tests = numbered join rule.memberships := by
  induction rule using Rule.induct generalizing join with
  | group conjunction rules ih =>
    rw [ofRule, tests_groupPredicate, Rule.memberships]
    exact testsFrom_ofRules ih join 0
  | text c => exact tests_onColumn fun column => tests_textPredicate column c
  | integer c => exact tests_onColumn fun column => tests_integerPredicate column c
  | flag c =>
    refine tests_onColumn fun column => ?_
    obtain ⟨field, sign, operator, _ | flag⟩ := c <;> rfl
  | date c => exact tests_onColumn fun column => tests_datePredicate now column c
  | mediaKind c =>
    obtain ⟨field, sign, operator, _ | kind⟩ := c
    · rfl
    · cases operator <;> rfl
  | playlist c => rfl
  | unknown c => rfl

theorem joinsFragments_eq (first : Nat) (joins : List (Option Key)) :
    joinsFragments first joins =
      (joins.mapIdx fun join playlist =>
        .words " " :: joinFragments (first + join) playlist).flatten := by
  induction joins generalizing first with
  | nil => rfl
  | cons playlist rest ih => simp [joinsFragments, ih, Nat.add_assoc, Nat.add_comm 1]

theorem isEmpty_joinsOfRules {rules : List Rule}
    (each : ∀ rule ∈ rules, (joinsOfRule rule).isEmpty = !rule.testsPlaylist) :
    (joinsOfRules rules).isEmpty = !rules.any Rule.testsPlaylist := by
  induction rules with
  | nil => rfl
  | cons rule rest ih =>
    obtain ⟨own, others⟩ := List.forall_mem_cons.1 each
    rw [joinsOfRules, List.any_cons, Bool.not_or, ← own, ← ih others]
    cases joinsOfRule rule <;> rfl

theorem isEmpty_joinsOfRule (rule : Rule) : (joinsOfRule rule).isEmpty = !rule.testsPlaylist := by
  induction rule using Rule.induct with
  | group conjunction rules ih =>
    rw [joinsOfRule, Rule.testsPlaylist, Rule.anyTestsPlaylist_eq]
    exact isEmpty_joinsOfRules ih
  | _ => rfl

/-! Queries. -/

/-- The joins of a query, and the rules of a tree that they are made for. -/
structure Joins (query : Query) (tree : Rule)
    (rules : List (List Nat × Condition (Option PersistentId))) : Prop where
  /-- All rules on playlists, at any depth, from left to right. -/
  complete : ∀ path c, (path, c) ∈ rules ↔ tree.at? path = some (.playlist c)
  ordered : rules.Pairwise (·.1 < ·.1)
  joins : query.joins = rules.map fun rule => rule.2.value.map PersistentId.key
  /-- Each of them is joined under the alias of its index. -/
  clauses : joinsFragments 0 query.joins =
    (rules.mapIdx fun join rule =>
      .words " " :: joinFragments join (rule.2.value.map PersistentId.key)).flatten
  /-- Where the condition tests a join, the rule stands that the join is made for. -/
  tests : ∀ path join found, query.condition.at? path = some (.joined join found) ↔
    ∃ c, rules[join]? = some (path, c) ∧ found = (c.value.isSome != c.sign.isNegated)
  /-- The test of a rule is on the alias of its join. -/
  written : ∀ path c join, rules[join]? = some (path, c) →
    ∃ test, query.condition.at? path = some test ∧ Fragment.sql test.fragments =
      joinAlias join ++ ".playlist_id" ++ nullTest (c.value.isSome != c.sign.isNegated)

theorem joins_of_tree {query : Query} {now : Timestamp} {tree : Rule}
    (condition : query.condition = ofRule now 0 tree) (joins : query.joins = joinsOfRule tree) :
    query.Joins tree tree.memberships where
  complete path c := Rule.mem_memberships_iff
  ordered := tree.memberships_ordered
  joins := joins.trans (joinsOfRule_memberships tree)
  clauses := by
    rw [joins, joinsOfRule_memberships, joinsFragments_eq]
    congr 1
    apply List.ext_getElem?
    intro join
    simp [Function.comp_def]
  tests path join found := by
    rw [condition, ← Predicate.mem_tests_iff, tests_ofRule, mem_numbered]
  written path c join there := by
    refine ⟨.joined join (c.value.isSome != c.sign.isNegated), ?_, String.empty_append⟩
    rw [condition, ← Predicate.mem_tests_iff, tests_ofRule, mem_numbered]
    exact ⟨c, there, rfl⟩

def aliases (query : Query) : List String := query.joins.mapIdx fun join _ => joinAlias join

theorem aliases_eq (query : Query) :
    query.aliases = (List.range query.joins.length).map joinAlias := by
  apply List.ext_getElem
  · simp [aliases]
  · simp [aliases]

/-- The joins of a query are those of its rules on playlists, under different names; with a join,
each track is selected once. -/
structure CountsJoins (query : Query) (set : RuleSet) : Prop where
  aliases : query.aliases.Nodup
  joins : ∃ rules, query.Joins (.group set.conjunction set.rules) rules
  distinct : query.distinct = set.testsPlaylist

theorem countsJoins {query : Query} {set : RuleSet} {now : Timestamp}
    (condition : query.condition = groupPredicate set.conjunction (ofRules now 0 set.rules))
    (joins : query.joins = joinsOfRules set.rules) : query.CountsJoins set where
  aliases := by
    rw [aliases_eq]
    exact List.nodup_range.map joinAlias_injective
  joins := ⟨_, joins_of_tree condition joins⟩
  distinct := by
    rw [Query.distinct, joins, isEmpty_joinsOfRules fun rule _ => isEmpty_joinsOfRule rule,
      Bool.not_not, RuleSet.testsPlaylist]

/-- No two indices have the same alias, also if they are words; and the queries of all rule sets and
smart playlists count their joins. -/
theorem joins_are_counted :
    Function.Injective joinAlias ∧
    (Function.Injective joinAliasOfWord ∧
      ∀ join : UInt64, join.toNat + 1 < 2 ^ 64 →
        joinAliasOfWord join = joinAlias join.toNat) ∧
    (∀ (set : RuleSet) (context : Context), (ofRuleSet set context).CountsJoins set) ∧
    ∀ (smart : Smart) (context : Context),
      (ofSmart smart context).CountsJoins smart.ruleset := by
  refine ⟨joinAlias_injective, ⟨joinAliasOfWord_injective, fun _ => joinAliasOfWord_eq⟩,
    fun set context => countsJoins rfl rfl, fun smart context => ?_⟩
  have condition : (ofSmart smart context).condition =
      groupPredicate smart.ruleset.conjunction (ofRules context.now 0 smart.ruleset.rules) := by
    rw [ofSmart]
    cases smart.limit <;> rfl
  have joins : (ofSmart smart context).joins = joinsOfRules smart.ruleset.rules := by
    rw [ofSmart]
    cases smart.limit <;> rfl
  exact countsJoins condition joins

end Query

end MusicLibrary
