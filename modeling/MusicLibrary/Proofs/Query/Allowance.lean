import Mathlib.Algebra.Order.BigOperators.Group.List
import Mathlib.Algebra.Order.Group.Int
import Mathlib.Algebra.Ring.Int.Defs
import MusicLibrary.Query.Budget

/-! What a budget admits. No total may be above what the budget starts with. What is left never
grows beyond the largest word either, so that no run of charges may be above that: this is what a
cap that is not set still refuses. -/

namespace MusicLibrary.Query

/-- The longest list that items start with and that has a property. -/
structure IsLongest (P : List α → Prop) (items kept : List α) : Prop where
  start : kept <+: items
  suits : P kept
  longest : ∀ other, other <+: items → P other → other <+: kept

namespace IsLongest

variable {P Q : List α → Prop} {items kept : List α} {a : α}

theorem eq_iff (h : IsLongest P items kept) : kept = items ↔ P items := by
  refine ⟨fun same => same ▸ h.suits, fun all => ?_⟩
  exact h.start.eq_of_length_le (h.longest items List.prefix_rfl all).length_le

theorem congr (same : ∀ other, other <+: items → (P other ↔ Q other))
    (h : IsLongest P items kept) : IsLongest Q items kept where
  start := h.start
  suits := (same kept h.start).mp h.suits
  longest other start suits := h.longest other start ((same other start).mpr suits)

theorem nil (empty : P []) (stops : ∀ rest, ¬ P (a :: rest)) : IsLongest P (a :: items) [] where
  start := List.nil_prefix
  suits := empty
  longest other start suits := by
    cases other with
    | nil => exact List.prefix_rfl
    | cons b rest =>
      obtain ⟨rfl, -⟩ := List.cons_prefix_cons.mp start
      exact absurd suits (stops rest)

theorem cons (step : ∀ rest, P (a :: rest) ↔ Q rest) (h : IsLongest Q items kept) :
    IsLongest P (a :: items) (a :: kept) where
  start := List.cons_prefix_cons.mpr ⟨rfl, h.start⟩
  suits := (step kept).mpr h.suits
  longest other start suits := by
    cases other with
    | nil => exact List.nil_prefix
    | cons b rest =>
      obtain ⟨rfl, behind⟩ := List.cons_prefix_cons.mp start
      exact List.cons_prefix_cons.mpr ⟨rfl, h.longest rest behind ((step rest).mp suits)⟩

end IsLongest

/-- What a budget is for. -/
inductive Measure where
  | size | time
  deriving DecidableEq

def Measure.pick (m : Measure) (size time : α) : α :=
  match m with
  | .size => size
  | .time => time

namespace Budget

/-- A size and a time. -/
abbrev Charge := Option Int64 × Option Int64

def largest : Int := 9223372036854775807

/-- What a charge takes of a budget; an amount that is not set takes nothing. -/
def cost (m : Measure) (charge : Charge) : Int :=
  ((m.pick charge.1 charge.2).getD 0).toInt

def left (budget : Budget) (m : Measure) : Int :=
  (m.pick budget.size budget.time).toInt

/-- Costs that may be taken one after the other. -/
structure Admits (start : Int) (costs : List Int) : Prop where
  totals : ∀ first, first <+: costs → first.sum ≤ start
  runs : ∀ run, run <:+: costs → run.sum ≤ largest

theorem admits_nil {start : Int} : Admits start [] ↔ 0 ≤ start := by
  refine ⟨fun h => h.totals [] List.prefix_rfl, fun low => ⟨fun first h => ?_, fun run h => ?_⟩⟩
  · rw [List.prefix_nil.mp h]
    exact low
  · rw [List.infix_nil.mp h]
    decide

/-- The first cost is taken from the start, and what is left is no larger than a word. -/
theorem admits_cons {start first : Int} {rest : List Int} (le : start ≤ largest) :
    Admits start (first :: rest) ↔
      0 ≤ start ∧ Admits (min (start - first) largest) rest := by
  constructor
  · intro h
    refine ⟨h.totals [] List.nil_prefix, fun others part => ?_, fun run part => ?_⟩
    · have total := h.totals (first :: others) (List.cons_prefix_cons.mpr ⟨rfl, part⟩)
      have run := h.runs others (List.infix_cons part.isInfix)
      rw [List.sum_cons] at total
      omega
    · exact h.runs run (List.infix_cons part)
  · rintro ⟨low, h⟩
    have totals : ∀ others, others <+: first :: rest → others.sum ≤ start := by
      intro others part
      cases others with
      | nil => exact low
      | cons a others =>
        obtain ⟨rfl, behind⟩ := List.cons_prefix_cons.mp part
        have total := h.totals others behind
        rw [List.sum_cons]
        omega
    refine ⟨totals, fun run part => ?_⟩
    -- A run at the front is a total, and the start is no larger than a word.
    rcases List.infix_cons_iff.mp part with part | part
    · exact Int.le_trans (totals run part) le
    · exact h.runs run part

/-- A start of the largest word bounds no more than the runs. -/
theorem admits_largest {costs : List Int} :
    Admits largest costs ↔ ∀ run, run <:+: costs → run.sum ≤ largest :=
  ⟨Admits.runs, fun runs => ⟨fun first part => runs first part.isInfix, runs⟩⟩

/-- A cost behind others makes new runs that end with it. -/
theorem admits_largest_concat {costs : List Int} (others : Admits largest costs) (c : Int) :
    Admits largest (costs ++ [c]) ↔ ∀ run, run <:+ costs → run.sum + c ≤ largest := by
  rw [admits_largest]
  constructor
  · intro runs run part
    have whole : run ++ [c] <:+ costs ++ [c] := List.suffix_concat_iff.mpr (.inr ⟨run, rfl, part⟩)
    simpa using runs (run ++ [c]) whole.isInfix
  · intro runs run part
    rcases List.infix_concat_iff.mp part with part | part
    · rcases List.suffix_concat_iff.mp part with rfl | ⟨before, rfl, ends⟩
      · decide
      · simpa using runs before ends
    · exact others.runs run part

/-- Costs that are not negative are admitted where all of them fit. -/
theorem admits_of_sum_le {start : Int} {costs : List Int} (low : ∀ c ∈ costs, 0 ≤ c)
    (sum : costs.sum ≤ start) (le : start ≤ largest) : Admits start costs where
  totals _ part := Int.le_trans (part.sublist.sum_le_sum low) sum
  runs _ part := Int.le_trans (part.sublist.sum_le_sum low) (Int.le_trans sum le)

/-- Where no cost is negative and a word holds the sum, only the totals matter. -/
theorem admits_iff_totals {start : Int} {costs : List Int} (low : ∀ c ∈ costs, 0 ≤ c)
    (sum : costs.sum ≤ largest) :
    Admits start costs ↔ ∀ first, first <+: costs → first.sum ≤ start := by
  refine ⟨Admits.totals, fun totals => ⟨totals, fun run part => ?_⟩⟩
  exact Int.le_trans (part.sublist.sum_le_sum low) sum

/-! Steps. -/

variable {budget : Budget} {charge : Charge}

theorem left_le_largest (budget : Budget) (m : Measure) : budget.left m ≤ largest :=
  Int.le_of_lt_add_one (m.pick budget.size budget.time).toInt_lt

/-- Nothing is overdrawn. -/
def IsCovered (budget : Budget) : Prop := ∀ m, 0 ≤ budget.left m

theorem toInt_clamp64 {n : Int} (low : -9223372036854775808 ≤ n) :
    (clamp64 n).toInt = min n largest := by
  rw [clamp64, if_neg (by omega), largest]
  split
  · rw [Int.min_eq_right (by omega)]
    rfl
  · rw [Int.min_eq_left (by omega)]
    exact Int64.toInt_ofInt_of_le (by omega) (by omega)

theorem toInt_saturatingSub {a b : Int64} (low : 0 ≤ a.toInt) :
    (saturatingSub a b).toInt = min (a.toInt - b.toInt) largest := by
  have high := b.toInt_lt
  exact toInt_clamp64 (by omega)

/-- What a budget says to a charge: it is refused if some measure has too little left. -/
inductive Answers (budget : Budget) (charge : Charge) : Option Budget → Prop
  | granted (after : Budget) (fits : ∀ m, cost m charge ≤ budget.left m)
      (left : ∀ m, after.left m = min (budget.left m - cost m charge) largest) :
      Answers budget charge (some after)
  | refused (m : Measure) (exceeds : budget.left m < cost m charge) :
      Answers budget charge none

theorem answers_charge? (covered : budget.IsCovered) (charge : Charge) :
    budget.Answers charge (budget.charge? charge.1 charge.2) := by
  have size : (saturatingSub budget.size (charge.1.getD 0)).toInt =
      min (budget.left .size - cost .size charge) largest :=
    toInt_saturatingSub (covered .size)
  have time : (saturatingSub budget.time (charge.2.getD 0)).toInt =
      min (budget.left .time - cost .time charge) largest :=
    toInt_saturatingSub (covered .time)
  have top : (0 : Int) ≤ largest := by decide
  simp only [charge?, Int64.lt_iff_toInt_lt, Int64.toInt_zero, size, time]
  split
  · rename_i below
    rcases below with below | below
    · exact .refused .size (by omega)
    · exact .refused .time (by omega)
  · rename_i enough
    refine .granted _ (fun m => ?_) fun m => ?_
    · cases m <;> omega
    · cases m
      · exact size
      · exact time

theorem Answers.isCovered {after : Budget} (h : budget.Answers charge (some after)) :
    after.IsCovered := by
  cases h with
  | granted _ fits left =>
    intro m
    have fits := fits m
    have top : (0 : Int) ≤ largest := by decide
    rw [left]
    omega

/-- A granted charge stands in front of what is admitted after it. -/
theorem Answers.admits_cons {after : Budget} (h : budget.Answers charge (some after))
    (covered : budget.IsCovered) (m : Measure) (costs : List Int) :
    Admits (budget.left m) (cost m charge :: costs) ↔ Admits (after.left m) costs := by
  cases h with
  | granted _ _ left =>
    rw [Budget.admits_cons (budget.left_le_largest m), left]
    exact and_iff_right (covered m)

/-- Of a list of items a budget takes the longest start whose costs it admits. -/
theorem isLongest_takeFitting (covered : budget.IsCovered) (charge : α → Charge) (items : List α) :
    IsLongest (fun kept => ∀ m, Admits (budget.left m) (kept.map fun a => cost m (charge a)))
      items (budget.takeFitting charge items) := by
  induction items generalizing budget with
  | nil =>
    refine ⟨List.prefix_rfl, fun m => admits_nil.mpr (covered m), fun other part _ => ?_⟩
    rw [List.prefix_nil.mp part]
    exact List.prefix_rfl
  | cons a rest ih =>
    have answer := answers_charge? covered (charge a)
    unfold takeFitting
    split
    · rename_i after granted
      rw [granted] at answer
      exact (ih answer.isCovered).cons fun others =>
        forall_congr' fun m => answer.admits_cons covered m _
    · rename_i refused
      rw [refused] at answer
      refine .nil (fun m => admits_nil.mpr (covered m)) fun others admits => ?_
      cases answer with
      | refused m exceeds =>
        have total := (admits m).totals [cost m (charge a)]
          (List.cons_prefix_cons.mpr ⟨rfl, List.nil_prefix⟩)
        rw [List.sum_singleton] at total
        omega

/-- A budget that covers the sums of all costs admits everything. -/
theorem takeFitting_eq_self {charge : α → Charge} {items : List α}
    (sizes : ∀ a ∈ items, 0 ≤ ((charge a).1.getD 0).toInt)
    (times : ∀ a ∈ items, 0 ≤ ((charge a).2.getD 0).toInt)
    (size : (items.map fun a => ((charge a).1.getD 0).toInt).sum ≤ budget.size.toInt)
    (time : (items.map fun a => ((charge a).2.getD 0).toInt).sum ≤ budget.time.toInt) :
    budget.takeFitting charge items = items := by
  have low : ∀ m, ∀ c ∈ items.map fun a => cost m (charge a), 0 ≤ c := by
    intro m
    cases m
    · exact List.forall_mem_map.mpr sizes
    · exact List.forall_mem_map.mpr times
  have sum : ∀ m, (items.map fun a => cost m (charge a)).sum ≤ budget.left m := by
    intro m
    cases m
    · exact size
    · exact time
  have covered : budget.IsCovered := fun m => Int.le_trans (List.sum_nonneg (low m)) (sum m)
  exact (isLongest_takeFitting covered charge items).eq_iff.mpr fun m =>
    admits_of_sum_le (low m) (sum m) (budget.left_le_largest m)

/-! Sequences of charges. -/

/-- What is left after a charge, granted or not. -/
def next (budget : Budget) (charge : Charge) : Budget :=
  (budget.charge? charge.1 charge.2).getD budget

/-- What is left after a sequence of charges. -/
def remaining (budget : Budget) (charges : List Charge) : Budget := charges.foldl next budget

/-- The charges of a sequence that are granted. -/
def granted (budget : Budget) (charges : List Charge) : List Charge :=
  ((charges.zip (budget.admissions charges)).filter (·.2)).map (·.1)

theorem admissions_cons (budget : Budget) (charge : Charge) (rest : List Charge) :
    budget.admissions (charge :: rest) =
      (budget.charge? charge.1 charge.2).isSome :: (budget.next charge).admissions rest := by
  rw [next]
  conv_lhs => unfold admissions
  cases budget.charge? charge.1 charge.2 <;> rfl

theorem granted_cons (budget : Budget) (charge : Charge) (rest : List Charge) :
    budget.granted (charge :: rest) =
      if (budget.charge? charge.1 charge.2).isSome then charge :: (budget.next charge).granted rest
      else (budget.next charge).granted rest := by
  rw [granted, granted, admissions_cons, List.zip_cons_cons, List.filter_cons]
  split <;> rfl

theorem admissions_append (budget : Budget) (charges : List Charge) (charge : Charge) :
    budget.admissions (charges ++ [charge]) =
      budget.admissions charges ++
        [((budget.remaining charges).charge? charge.1 charge.2).isSome] := by
  induction charges generalizing budget with
  | nil => exact budget.admissions_cons charge []
  | cons first rest ih =>
    rw [List.cons_append, admissions_cons, admissions_cons, ih, List.cons_append]
    rfl

theorem isCovered_next (covered : budget.IsCovered) (charge : Charge) :
    (budget.next charge).IsCovered := by
  have answer := answers_charge? covered charge
  rw [next]
  cases result : budget.charge? charge.1 charge.2 with
  | none => exact covered
  | some after => exact (result ▸ answer).isCovered

theorem isCovered_remaining (covered : budget.IsCovered) (charges : List Charge) :
    (budget.remaining charges).IsCovered := by
  induction charges generalizing budget with
  | nil => exact covered
  | cons charge rest ih => exact ih (isCovered_next covered charge)

/-- A charge is granted, and stands in front of what is admitted after it, or it is refused and
leaves the budget as it is. -/
theorem granted_or_refused (covered : budget.IsCovered) (charge : Charge) (m : Measure) :
    ((∀ rest, budget.granted (charge :: rest) = charge :: (budget.next charge).granted rest) ∧
        ∀ costs, Admits (budget.left m) (cost m charge :: costs) ↔
          Admits ((budget.next charge).left m) costs) ∨
      (∀ rest, budget.granted (charge :: rest) = budget.granted rest) ∧
        budget.next charge = budget := by
  have answer := answers_charge? covered charge
  simp only [granted_cons, next]
  cases result : budget.charge? charge.1 charge.2 with
  | none => exact .inr ⟨fun rest => rfl, rfl⟩
  | some after => exact .inl ⟨fun rest => rfl, (result ▸ answer).admits_cons covered m⟩

theorem admits_granted (covered : budget.IsCovered) (m : Measure) (charges : List Charge) :
    Admits (budget.left m) ((budget.granted charges).map (cost m)) := by
  induction charges generalizing budget with
  | nil => exact admits_nil.mpr (covered m)
  | cons charge rest ih =>
    obtain ⟨granted, step⟩ | ⟨refused, same⟩ := granted_or_refused covered charge m
    · rw [granted, List.map_cons, step]
      exact ih (isCovered_next covered charge)
    · rw [refused]
      exact ih covered

/-- A cost fits what is left if it is admitted behind the costs that were granted. -/
theorem le_left_remaining_iff (covered : budget.IsCovered) (m : Measure)
    (charges : List Charge) (c : Int) :
    c ≤ (budget.remaining charges).left m ↔
      Admits (budget.left m) ((budget.granted charges).map (cost m) ++ [c]) := by
  induction charges generalizing budget with
  | nil =>
    have low := covered m
    have positive : (0 : Int) ≤ largest := by decide
    change c ≤ budget.left m ↔ Admits (budget.left m) [c]
    rw [Budget.admits_cons (budget.left_le_largest m), admits_nil]
    omega
  | cons charge rest ih =>
    obtain ⟨granted, step⟩ | ⟨refused, same⟩ := granted_or_refused covered charge m
    · rw [granted, List.map_cons, List.cons_append, step]
      exact ih (isCovered_next covered charge)
    · rw [refused, remaining, List.foldl_cons, same]
      exact ih covered

/-! Caps. -/

/-- A cap beyond the largest word, or none at all, is the largest word. -/
theorem left_ofCaps (maxSize maxTime : Option UInt64) (m : Measure) :
    (ofCaps maxSize maxTime).left m =
      ((m.pick maxSize maxTime).map fun cap => min (cap.toNat : Int) largest).getD largest := by
  have start : ∀ cap : Option UInt64,
      ((cap.map fun n => clamp64 n.toNat).getD unlimited).toInt =
        (cap.map fun n => min (n.toNat : Int) largest).getD largest := by
    intro cap
    cases cap with
    | none => rfl
    | some n => exact toInt_clamp64 (by omega)
  cases m
  · exact start maxSize
  · exact start maxTime

theorem isCovered_ofCaps (maxSize maxTime : Option UInt64) :
    (ofCaps maxSize maxTime).IsCovered := by
  intro m
  rw [left_ofCaps]
  cases m.pick maxSize maxTime with
  | none => decide
  | some cap => exact Int.le_min.mpr ⟨Int.natCast_nonneg _, by decide⟩

theorem charge?_eq_none_iff (covered : budget.IsCovered) (charge : Charge) :
    budget.charge? charge.1 charge.2 = none ↔ ∃ m, budget.left m < cost m charge := by
  cases result : budget.charge? charge.1 charge.2 with
  | none =>
    have answer := answers_charge? covered charge
    rw [result] at answer
    cases answer with
    | refused m exceeds => exact iff_of_true rfl ⟨m, exceeds⟩
  | some after =>
    have answer := answers_charge? covered charge
    rw [result] at answer
    cases answer with
    | granted _ fits _ =>
      refine iff_of_false nofun ?_
      rintro ⟨m, exceeds⟩
      exact absurd exceeds (Int.not_lt.mpr (fits m))

/-- What is left of a charge without the amount of the other measure. -/
def alone (m : Measure) (charge : Charge) : Charge := m.pick (charge.1, none) (none, charge.2)

theorem cost_alone (k m : Measure) (charge : Charge) :
    cost k (alone m charge) = if k = m then cost m charge else 0 := by
  cases k <;> cases m <;> rfl

def Refuses (budget : Budget) (m : Measure) (charge : Charge) : Prop :=
  budget.charge? (alone m charge).1 (alone m charge).2 = none

theorem refuses_iff (covered : budget.IsCovered) (m : Measure) (charge : Charge) :
    budget.Refuses m charge ↔ budget.left m < cost m charge := by
  rw [Refuses, charge?_eq_none_iff covered]
  refine ⟨fun ⟨k, exceeds⟩ => ?_, fun exceeds => ⟨m, by rwa [cost_alone, if_pos rfl]⟩⟩
  rw [cost_alone] at exceeds
  split at exceeds
  · rename_i same
    rwa [← same] at exceeds ⊢
  · exact absurd exceeds (Int.not_lt.mpr (covered k))

/-- A charge is refused for one of its measures. -/
theorem charge?_eq_none_iff_refuses (covered : budget.IsCovered) (charge : Charge) :
    budget.charge? charge.1 charge.2 = none ↔ ∃ m, budget.Refuses m charge := by
  rw [charge?_eq_none_iff covered]
  exact exists_congr fun m => (refuses_iff covered m charge).symm

/-- Without a cap a charge is still refused if together with those that were granted right before
it, it is above the largest word. -/
theorem refuses_remaining_iff {maxSize maxTime : Option UInt64} {m : Measure}
    (uncapped : m.pick maxSize maxTime = none) (charges : List Charge) (charge : Charge) :
    ((ofCaps maxSize maxTime).remaining charges).Refuses m charge ↔
      ∃ run, run <:+ (ofCaps maxSize maxTime).granted charges ∧
        largest < (run.map (cost m)).sum + cost m charge := by
  have covered := isCovered_ofCaps maxSize maxTime
  have start : (ofCaps maxSize maxTime).left m = largest := by
    rw [left_ofCaps, uncapped]
    rfl
  have granted := admits_granted covered m charges
  have fits := le_left_remaining_iff covered m charges (cost m charge)
  rw [start] at granted fits
  rw [refuses_iff (isCovered_remaining covered charges), ← Int.not_le, fits,
    admits_largest_concat granted]
  push Not
  constructor
  · rintro ⟨costs, part, above⟩
    obtain ⟨run, ends, rfl⟩ := List.suffix_map_iff.mp part
    exact ⟨run, ends, above⟩
  · rintro ⟨run, part, above⟩
    exact ⟨run.map (cost m), part.map _, above⟩

end Budget

end MusicLibrary.Query
