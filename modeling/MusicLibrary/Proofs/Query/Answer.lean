import MusicLibrary.Query.Evaluate

/-! When a query is answered. A search can only end early at a pattern that is too long, so it comes
to an end where all patterns are short; of tracks that are not repeated nothing is left out. -/

namespace MusicLibrary

namespace Query

namespace Predicate

/-! Patterns. -/

mutual

/-- The patterns that a condition matches with. -/
def patterns : Predicate → List String
  | .like _ pattern _ => [pattern]
  | .group _ parts => patternsOfParts parts
  | _ => []
termination_by structural p => p

def patternsOfParts : List Predicate → List String
  | [] => []
  | p :: rest => p.patterns ++ patternsOfParts rest
termination_by structural parts => parts

end

def IsShort (p : Predicate) : Prop := ∀ s ∈ p.patterns, s.utf8ByteSize ≤ maxPatternSize

instance (p : Predicate) : Decidable p.IsShort := inferInstanceAs (Decidable (∀ s ∈ _, _))

theorem isShort_group {conjunction : Smart.Conjunction} {parts : List Predicate} :
    (group conjunction parts).IsShort ↔ ∀ p ∈ parts, p.IsShort := by
  rw [IsShort, patterns]
  induction parts with
  | nil => simp [patternsOfParts]
  | cons p rest ih => simp [patternsOfParts, or_imp, forall_and, ih, IsShort]

mutual

theorem isSome_test (row : Row) : ∀ p : Predicate, p.IsShort → (test row p).isSome
  | .like column pattern negated, short => by
    have fits : ¬ maxPatternSize < pattern.utf8ByteSize :=
      Nat.not_lt.2 (short pattern (by simp [patterns]))
    rw [test, if_neg fits]
    rfl
  | .group .and parts, short => isSome_testAll row parts (isShort_group.1 short)
  | .group .or parts, short => isSome_testAny row parts (isShort_group.1 short)
  | .never, _ | .always, _ | .isNull .., _ | .compare .., _ | .sharesFlag .., _
  | .joined .., _ => rfl

theorem isSome_testAll (row : Row) :
    ∀ parts : List Predicate, (∀ p ∈ parts, p.IsShort) → (testAll row parts).isSome
  | [], _ => rfl
  | p :: rest, short => by
    have first := isSome_test row p (short p List.mem_cons_self)
    have others := isSome_testAll row rest fun q mem => short q (List.mem_cons_of_mem p mem)
    rw [testAll]
    split
    · exact others
    · exact first

theorem isSome_testAny (row : Row) :
    ∀ parts : List Predicate, (∀ p ∈ parts, p.IsShort) → (testAny row parts).isSome
  | [], _ => rfl
  | p :: rest, short => by
    have first := isSome_test row p (short p List.mem_cons_self)
    have others := isSome_testAny row rest fun q mem => short q (List.mem_cons_of_mem p mem)
    rw [testAny]
    split
    · exact others
    · exact first

end

mutual

theorem isShort_of_mem_conjuncts {q : Predicate} :
    ∀ p : Predicate, p.IsShort → q ∈ p.conjuncts → q.IsShort
  | .group conjunction parts, short, mem => by
    rw [conjuncts] at mem
    split at mem
    · exact isShort_of_mem_conjunctsOfParts parts (isShort_group.1 short) mem
    · exact List.mem_singleton.1 mem ▸ short
  | .like .., short, mem | .never, short, mem | .always, short, mem | .isNull .., short, mem
  | .compare .., short, mem | .sharesFlag .., short, mem | .joined .., short, mem =>
    List.mem_singleton.1 mem ▸ short

theorem isShort_of_mem_conjunctsOfParts {q : Predicate} :
    ∀ parts : List Predicate, (∀ p ∈ parts, p.IsShort) → q ∈ conjunctsOfParts parts → q.IsShort
  | [], _, mem => absurd mem List.not_mem_nil
  | p :: rest, short, mem =>
    (List.mem_append.1 mem).elim (isShort_of_mem_conjuncts p (short p List.mem_cons_self))
      (isShort_of_mem_conjunctsOfParts rest fun r inside => short r (List.mem_cons_of_mem p inside))

end

end Predicate

open Predicate

theorem isSome_filter? {test : α → Option Bool} {items : List α}
    (ends : ∀ a ∈ items, (test a).isSome) : (filter? test items).isSome := by
  induction items with
  | nil => rfl
  | cons a rest ih =>
    obtain ⟨keep, first⟩ := Option.isSome_iff_exists.1 (ends a List.mem_cons_self)
    obtain ⟨kept, others⟩ :=
      Option.isSome_iff_exists.1 (ih fun b mem => ends b (List.mem_cons_of_mem a mem))
    simp [filter?, first, others]

/-- A search without long patterns finds the matching tracks. -/
theorem search_eq_matching {query : Query} (short : query.condition.IsShort) (library : Library) :
    query.search library = some (query.matching library) := by
  have ends : (query.search library).isSome := by
    refine isSome_filter? fun track _ => ?_
    rw [keeps?]
    split
    · rfl
    · refine isSome_testAll _ _ fun p mem => isShort_of_mem_conjuncts query.condition short ?_
      exact List.mem_mergeSort.1 mem
  obtain ⟨tracks, found⟩ := Option.isSome_iff_exists.1 ends
  rw [found, eq_matching_of_search found]

/-- A query that can be run and has no long pattern yields what it matches, in the order of a plan
and within the caps. -/
theorem run?_eq_matching {query : Query} (runnable : query.isRunnable = true)
    (short : query.condition.IsShort) (plan : Plan) (library : Library) :
    query.run? plan library =
      some (query.capped (query.ordered plan library (query.matching library))) := by
  rw [run?, runnable, if_neg (by decide), search_eq_matching short, Option.map_some]
  split
  · rename_i none
    rw [capped, none]
    rfl
  · rfl

/-! Nothing is left out. -/

theorem foldl_addUnseen [BEq α] [LawfulBEq α] {items : List α} (distinct : items.Nodup)
    {seen : List α} (fresh : ∀ a ∈ items, a ∉ seen) :
    items.foldl addUnseen seen = items.reverse ++ seen := by
  induction items generalizing seen with
  | nil => rfl
  | cons a rest ih =>
    have ⟨new, others⟩ := List.nodup_cons.1 distinct
    have unseen : seen.contains a = false := by
      simpa using fresh a List.mem_cons_self
    rw [List.foldl_cons, addUnseen, unseen, if_neg Bool.false_ne_true, ih others]
    · simp
    · intro b mem
      rw [List.mem_cons, not_or]
      exact ⟨fun same => new (same ▸ mem), fresh b (List.mem_cons_of_mem a mem)⟩

theorem firstOccurrences_of_nodup [BEq α] [LawfulBEq α] {items : List α} (distinct : items.Nodup) :
    firstOccurrences items = items := by
  simp [firstOccurrences, foldl_addUnseen distinct]

end Query

end MusicLibrary
