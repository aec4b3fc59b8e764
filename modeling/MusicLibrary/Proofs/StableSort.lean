import Mathlib.Data.List.Basic

/-! Stable sorting. Items that may stand either way keep the order they came in. -/

namespace MusicLibrary

variable {le : α → α → Bool} (trans : ∀ a b c, le a b = true → le b c = true → le a c = true)
  (total : ∀ a b, (le a b || le b a) = true)
include trans total

/-- Sorting puts an item behind those that have to stand before it, and in front of all others. -/
theorem mergeSort_cons_eq (a : α) (rest : List α) :
    (a :: rest).mergeSort le =
      (rest.mergeSort le).filter (fun b => !le a b) ++ a :: (rest.mergeSort le).filter (le a) := by
  obtain ⟨front, back, all, others, ahead⟩ := List.mergeSort_cons trans total a rest
  have order := List.pairwise_mergeSort trans total (a :: rest)
  rw [all, List.pairwise_append, List.pairwise_cons] at order
  have behind : ∀ b ∈ back, le a b = true := order.2.1.1
  have ahead' : ∀ b ∈ front, ¬ le a b = true := fun b mem => by simpa using ahead b mem
  have behind' : ∀ b ∈ back, ¬ (!le a b) = true := fun b mem => by simpa using behind b mem
  rw [all, others, List.filter_append, List.filter_append, List.filter_eq_self.2 ahead,
    List.filter_eq_nil_iff.2 behind', List.filter_eq_nil_iff.2 ahead', List.filter_eq_self.2 behind,
    List.append_nil, List.nil_append]

/-- Whether items are left out before sorting or after it makes no difference. -/
theorem filter_mergeSort (keep : α → Bool) (items : List α) :
    (items.mergeSort le).filter keep = (items.filter keep).mergeSort le := by
  induction items with
  | nil => simp
  | cons a rest ih =>
    by_cases kept : keep a = true
    · rw [List.filter_cons_of_pos kept, mergeSort_cons_eq trans total, List.filter_append,
        List.filter_cons_of_pos kept, mergeSort_cons_eq trans total, ← ih]
      simp only [List.filter_filter, Bool.and_comm]
    · obtain ⟨front, back, all, others, _⟩ := List.mergeSort_cons trans total a rest
      rw [List.filter_cons_of_neg kept, ← ih, all, others, List.filter_append, List.filter_append,
        List.filter_cons_of_neg kept]

theorem pairwise_mergeSort_of_ties {items : List α} {R : α → α → Prop} (order : items.Pairwise R) :
    (items.mergeSort le).Pairwise fun a b => le b a = true → R a b := by
  induction items with
  | nil => simp
  | cons a rest ih =>
    obtain ⟨first, others⟩ := List.pairwise_cons.mp order
    have sorted := ih others
    rw [mergeSort_cons_eq trans total, List.pairwise_append, List.pairwise_cons]
    refine ⟨sorted.filter _, ⟨fun b mem _ => ?_, sorted.filter _⟩, fun b mem c mem' tie => ?_⟩
    · have mem := (List.mem_filter.mp mem).1
      exact first b ((List.mergeSort_perm rest le).mem_iff.mp mem)
    · have ahead : ¬ le a b = true := by simpa using (List.mem_filter.mp mem).2
      obtain rfl | mem' := List.mem_cons.mp mem'
      · exact absurd tie ahead
      · exact absurd (trans _ _ _ (List.mem_filter.mp mem').2 tie) ahead

end MusicLibrary
