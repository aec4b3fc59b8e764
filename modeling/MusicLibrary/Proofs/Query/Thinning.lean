import MusicLibrary.Proofs.Query.Arrangement

/-! Conditions that are left out of groups. Where every condition that is left out of a conjunction
is always true, the query tests the same: the same values are bound, and no test ends otherwise. The
same holds of a disjunction if nothing is left out of it, or if it is left out as a whole. -/

namespace MusicLibrary.Query

open Smart

namespace Predicate

theorem values_furtherFragments (separator : String) (parts : List Predicate) :
    Fragment.values (furtherFragments separator parts) =
      parts.flatMap fun p => Fragment.values p.fragments := by
  induction parts with
  | nil => rfl
  | cons p rest ih =>
    change Fragment.values (p.fragments ++ furtherFragments separator rest) = _
    rw [Fragment.values_append, ih, List.flatMap_cons]

/-- The values that a group binds are those of its parts. -/
theorem values_group (conjunction : Conjunction) (parts : List Predicate) :
    Fragment.values (group conjunction parts).fragments =
      parts.flatMap fun p => Fragment.values p.fragments := by
  rw [fragments]
  change Fragment.values (joinFragments _ parts ++ [.words ")"]) = _
  rw [Fragment.values_append]
  cases parts with
  | nil => rfl
  | cons p rest =>
    rw [joinFragments, Fragment.values_append, values_furtherFragments, List.flatMap_cons]
    exact List.append_nil _

/-- Conditions that a query treats alike, the second one no deeper than the first one. -/
structure Alike (p q : Predicate) : Prop where
  test : ∀ row, test row p = test row q
  stage : p.stage = q.stage
  pending : ∀ row, pending row p.conjuncts = pending row q.conjuncts
  values : Fragment.values p.fragments = Fragment.values q.fragments
  height : q.height ≤ p.height

theorem Alike.refl (p : Predicate) : Alike p p :=
  ⟨fun _ => rfl, rfl, fun _ => rfl, rfl, Nat.le_refl _⟩

/-- The parts of a group and what is left of them. -/
inductive Thinned : List Predicate → List Predicate → Prop
  | nil : Thinned [] []
  | drop {ps qs} (rest : Thinned ps qs) : Thinned (.always :: ps) qs
  | keep {p q ps qs} (first : Alike p q) (rest : Thinned ps qs) : Thinned (p :: ps) (q :: qs)

namespace Thinned

variable {ps qs : List Predicate}

theorem testAll (h : Thinned ps qs) (row : Row) :
    Predicate.testAll row ps = Predicate.testAll row qs := by
  induction h with
  | nil => rfl
  | drop _ ih => exact ih
  | keep first _ ih => rw [Predicate.testAll, Predicate.testAll, first.test, ih]

theorem stage (h : Thinned ps qs) : stageOfParts ps = stageOfParts qs := by
  induction h with
  | nil => rfl
  | drop _ ih => exact (Nat.zero_max _).trans ih
  | keep first _ ih => rw [stageOfParts, stageOfParts, first.stage, ih]

theorem pending (h : Thinned ps qs) (row : Row) :
    Predicate.pending row (conjunctsOfParts ps) = Predicate.pending row (conjunctsOfParts qs) := by
  induction h with
  | nil => rfl
  | drop _ ih => exact ih
  | keep first _ ih =>
    rw [conjunctsOfParts, conjunctsOfParts, pending_append, pending_append, first.pending, ih]

theorem values (h : Thinned ps qs) :
    (ps.flatMap fun p => Fragment.values p.fragments) =
      qs.flatMap fun q => Fragment.values q.fragments := by
  induction h with
  | nil => rfl
  | drop _ ih => exact ih
  | keep first _ ih => rw [List.flatMap_cons, List.flatMap_cons, first.values, ih]

theorem height (h : Thinned ps qs) {a b : Nat} (le : b ≤ a) :
    heightOfParts b qs ≤ heightOfParts a ps := by
  induction h generalizing a b with
  | nil => exact le
  | drop _ ih =>
    refine ih ?_
    split
    · omega
    · omega
  | @keep p q _ _ first _ ih =>
    have own := first.height
    refine ih ?_
    split <;> split <;> omega

theorem length_le (h : Thinned ps qs) : qs.length ≤ ps.length := by
  induction h with
  | nil => exact Nat.le_refl _
  | drop _ ih => exact Nat.le_succ_of_le ih
  | keep _ _ ih => exact Nat.succ_le_succ ih

theorem testAny (h : Thinned ps qs) (whole : qs.length = ps.length) (row : Row) :
    Predicate.testAny row ps = Predicate.testAny row qs := by
  induction h with
  | nil => rfl
  | drop rest _ =>
    have fewer := rest.length_le
    rw [List.length_cons] at whole
    omega
  | keep first _ ih =>
    rw [Predicate.testAny, Predicate.testAny, first.test, ih (Nat.succ.inj whole)]

end Thinned

theorem le_heightOfParts (first : Nat) (parts : List Predicate) :
    first ≤ heightOfParts first parts := by
  induction parts generalizing first with
  | nil => exact Nat.le_refl _
  | cons p rest ih =>
    rw [heightOfParts]
    split
    · omega
    · exact Nat.le_trans (by omega) (ih _)

/-- Of a group of conditions that are always true one such condition is left. -/
theorem alike_always (conjunction : Conjunction) {rest : List Predicate}
    (h : Thinned (.always :: rest) []) :
    Alike (group conjunction (.always :: rest)) (group .and [.always]) := by
  have ends (row : Row) : test row (group conjunction (.always :: rest)) = some true := by
    cases conjunction with
    | and => exact h.testAll row
    | or => rfl
  refine ⟨ends, h.stage, fun row => ?_, ?_, le_heightOfParts 2 rest⟩
  · have single := h.pending row
    have whole : Predicate.pending row [group conjunction (.always :: rest)] = [] := by
      simp [Predicate.pending, profile, ends row]
    rw [conjuncts]
    split
    · exact single
    · exact whole
  · rw [values_group, h.values]
    rfl

theorem alike_and {ps qs : List Predicate} (h : Thinned ps qs) :
    Alike (group .and ps) (group .and qs) where
  test := h.testAll
  stage := h.stage
  pending row := by
    simpa only [conjuncts, true_or, if_true] using h.pending row
  values := by rw [values_group, values_group, h.values]
  height := h.height (Nat.le_refl 0)

theorem alike_or {ps qs : List Predicate} (h : Thinned ps qs) (whole : qs.length = ps.length) :
    Alike (group .or ps) (group .or qs) where
  test := h.testAny whole
  stage := h.stage
  pending row := by
    -- A disjunction of one condition is taken apart like a conjunction.
    simp only [conjuncts, reduceCtorEq, false_or, whole]
    split
    · exact h.pending row
    · have same : test row (group .or ps) = test row (group .or qs) := h.testAny whole row
      have stage : stage (group .or ps) = stage (group .or qs) := h.stage
      simp only [Predicate.pending, List.map_cons, List.map_nil, profile, same, stage]
  values := by rw [values_group, values_group, h.values]
  height := h.height (Nat.le_refl 0)

/-- A group and what is left of it, if its parts can be missed. -/
theorem alike_groupPredicate {ps qs : List Predicate} (h : Thinned ps qs)
    {conjunction : Conjunction}
    (missed : conjunction = .or → qs = [] ∨ qs.length = ps.length) :
    Alike (groupPredicate conjunction ps) (groupPredicate conjunction qs) := by
  cases ps with
  | nil => cases h; exact .refl _
  | cons p ps =>
    cases qs with
    | nil => cases h with | drop rest => exact alike_always conjunction (.drop rest)
    | cons q qs =>
      cases conjunction with
      | and => exact alike_and h
      | or => exact alike_or h ((missed rfl).resolve_left (List.cons_ne_nil _ _))

end Predicate

/-- The values of the joins are bound before those of the condition. -/
theorem parameters_eq (query : Query) :
    query.parameters = Fragment.values (joinsFragments 0 query.joins) ++
      Fragment.values query.condition.fragments := by
  change Fragment.values (joinsFragments 0 query.joins ++ .words _ :: query.condition.fragments ++
    [.words _, .words _]) = _
  rw [Fragment.values_append, Fragment.values_append]
  exact List.append_nil _

end MusicLibrary.Query
