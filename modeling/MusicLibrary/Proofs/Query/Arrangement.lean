import MusicLibrary.Proofs.StableSort
import MusicLibrary.Query.Search

/-! Conditions that are tested as soon as they can be. The test of an arrangement ends at the first
condition that does not hold, so conditions that hold may be left out of it: sorting is stable, and
the others stay as they were among themselves. -/

namespace MusicLibrary.Query

namespace Predicate

/-- What an arrangement depends on: when each condition can be tested, and how its test ends. -/
def profile (row : Row) (p : Predicate) : Nat × Option Bool := (p.stage, test row p)

/-- The conditions that do not simply hold, in order. -/
def pending (row : Row) (parts : List Predicate) : List (Nat × Option Bool) :=
  (parts.map (profile row)).filter fun entry => entry.2 != some true

theorem pending_append (row : Row) (a b : List Predicate) :
    pending row (a ++ b) = pending row a ++ pending row b := by
  simp [pending]

/-- The first condition that does not hold ends the test. -/
theorem testAll_eq (row : Row) (parts : List Predicate) :
    testAll row parts = (((pending row parts).head?).map (·.2)).getD (some true) := by
  induction parts with
  | nil => rfl
  | cons p rest ih =>
    rw [testAll]
    split
    · rename_i holds
      rw [ih]
      simp [pending, profile, holds]
    · rename_i other
      have fails : test row p ≠ some true := other
      simp [pending, profile, fails]

theorem pending_arranged (row : Row) (p : Predicate) :
    pending row p.arranged =
      (pending row p.conjuncts).mergeSort fun a b => decide (a.1 ≤ b.1) := by
  have profiles : (p.arranged).map (profile row) =
      (p.conjuncts.map (profile row)).mergeSort fun a b => decide (a.1 ≤ b.1) :=
    List.map_mergeSort fun _ _ _ _ => rfl
  rw [pending, profiles, filter_mergeSort, pending]
  · intro a b c first second
    simp only [decide_eq_true_eq] at *
    omega
  · intro a b
    simp only [Bool.or_eq_true, decide_eq_true_eq]
    omega

/-- Arrangements with the same conditions pending end alike. -/
theorem testAll_arranged_congr {row : Row} {p q : Predicate}
    (same : pending row p.conjuncts = pending row q.conjuncts) :
    testAll row p.arranged = testAll row q.arranged := by
  rw [testAll_eq, testAll_eq, pending_arranged, pending_arranged, same]

end Predicate

end MusicLibrary.Query
