import MusicLibrary.Proofs.Merge.Patch
import MusicLibrary.Proofs.Merge.Renaming

/-! Lists without repeated items. No edit of theirs can be shifted past an equal item, so
compaction leaves the blocks of a script as they are, and what two lists have in common at one of
their ends stays out of the blocks. -/

namespace MusicLibrary.Merge

variable {α : Type}

/-! The blocks of a script. -/

/-- Edits in front of a script do not look into it. -/
theorem blocksOf_append_congr (front : List (Edit α)) {a b : List (Edit α)}
    (same : blocksOf a = blocksOf b) : blocksOf (front ++ a) = blocksOf (front ++ b) := by
  induction front with
  | nil => exact same
  | cons e rest ih => rw [List.cons_append, List.cons_append, blocksOf, blocksOf, ih]

/-- A kept run without items does not part two edits. -/
theorem blocksOf_keep_nil (rest : List (Edit α)) :
    blocksOf (⟨.keep, []⟩ :: rest) = blocksOf rest := by
  rw [blocksOf]
  obtain ⟨blocks, tail⟩ := blocksOf rest
  cases blocks <;> rfl

theorem blocksOf_merge {a b : Edit α} {action : Action} (ha : a.action = action)
    (hb : b.action = action) (rest : List (Edit α)) :
    blocksOf (⟨action, a.items ++ b.items⟩ :: rest) = blocksOf (a :: b :: rest) := by
  obtain ⟨a, as⟩ := a
  obtain ⟨b, bs⟩ := b
  subst ha
  subst hb
  cases blocks : (blocksOf rest).1 with
  | nil => cases b <;> simp [blocksOf, blocks, addEdit]
  | cons first more =>
    obtain ⟨gap, removed, added⟩ := first
    cases b <;> cases gap <;> simp [blocksOf, blocks, addEdit]

/-- A deletion and an insertion next to each other are in one block, whichever comes first. -/
theorem blocksOf_swap {a b : Edit α} (ha : a.action ≠ .keep) (hb : b.action ≠ .keep)
    (other : a.action ≠ b.action) (rest : List (Edit α)) :
    blocksOf (a :: b :: rest) = blocksOf (b :: a :: rest) := by
  obtain ⟨a, as⟩ := a
  obtain ⟨b, bs⟩ := b
  cases blocks : (blocksOf rest).1 with
  | nil => cases a <;> cases b <;> simp_all [blocksOf, addEdit]
  | cons first more =>
    obtain ⟨gap, removed, added⟩ := first
    cases a <;> cases b <;> cases gap <;> simp_all [blocksOf, addEdit]

variable {omitted : Action}

/-- Two runs of a list without repeated items have no item in common. -/
theorem Edit.eq_nil_of_shared {a b : Edit α} {shared : List α} (ha : a.action ≠ omitted)
    (hb : b.action ≠ omitted) (distinct : (a.without omitted ++ b.without omitted).Nodup)
    (left : ∀ item ∈ shared, item ∈ a.items) (right : ∀ item ∈ shared, item ∈ b.items) :
    shared = [] := by
  rw [Edit.without, if_neg ha, Edit.without, if_neg hb, List.nodup_append] at distinct
  apply List.eq_nil_iff_forall_not_mem.2
  intro item mem
  exact distinct.2.2 item (left item mem) item (right item mem) rfl

/-- Next to an edit, the runs of a script without repeated items have none in common with it. -/
theorem nodup_pair {front back : List (Edit α)} {a b : Edit α}
    (distinct : (without omitted (front ++ a :: b :: back)).Nodup) :
    (a.without omitted ++ b.without omitted).Nodup := by
  rw [without_append, without_cons, without_cons, ← List.append_assoc (a.without omitted)]
    at distinct
  exact (List.nodup_append.1 (List.nodup_append.1 distinct).2.1).1

variable [DecidableEq α]

/-- On its way up an edit meets no item of its own, so it only trades places with edits of the
other kind and takes up those of its own. -/
theorem blocksOf_shiftUp (kept : omitted ≠ .keep) (before : List (Edit α)) {current : Edit α}
    (after : List (Edit α)) (edits : current.action ≠ .keep) (shown : current.action ≠ omitted)
    (distinct : (without omitted (before.reverse ++ current :: after)).Nodup) :
    blocksOf (shiftUp before current after).script =
      blocksOf (before.reverse ++ current :: after) := by
  fun_induction shiftUp before current after with
  | case1 => rfl
  | case2 => rfl
  | case3 current after previous rest keep shared moved ih =>
    rw [List.reverse_cons, List.append_assoc] at distinct ⊢
    have none : shared = [] := Edit.eq_nil_of_shared (keep ▸ kept.symm) shown (nodup_pair distinct)
      (fun _ mem => (commonSuffix_suffix_right _ _).subset mem)
      (fun _ mem => (commonSuffix_suffix_left _ _).subset mem)
    -- Nothing is shared and the edit still moves on, so the kept run was an empty one.
    have empty : previous = ⟨.keep, []⟩ := by
      have items : previous.items = [] := Classical.byContradiction fun h => moved ⟨none, h⟩
      cases previous
      simp_all
    have gone : edit .keep (dropEnd ([] : List α) 0) ++ rest = rest := rfl
    have same : (⟨current.action, [] ++ dropEnd current.items 0⟩ : Edit α) = current := by
      simp [dropEnd]
    subst empty
    simp only [none, List.length_nil, gone, same, List.isEmpty_nil, if_true, dite_eq_ite] at ih ⊢
    have step := ih edits shown (by
      simpa only [List.singleton_append, without_append, without_cons, Edit.without_keep kept,
        List.nil_append] using distinct)
    rw [step]
    exact blocksOf_append_congr rest.reverse (blocksOf_keep_nil _).symm
  | case4 current after previous rest keep same ih =>
    rw [List.reverse_cons, List.append_assoc] at distinct ⊢
    have step := ih edits shown (by
      simp only [without_append, without_cons, Edit.without_merge same rfl, List.append_assoc,
        without_nil, List.append_nil] at distinct ⊢
      exact distinct)
    rw [step]
    exact blocksOf_append_congr rest.reverse (blocksOf_merge same rfl after)
  | case5 current after previous rest keep other ih =>
    rw [List.reverse_cons, List.append_assoc] at distinct ⊢
    have swap := Edit.without_swap kept keep edits other
    have step := ih edits shown (by
      simp only [without_append, without_cons, without_nil, List.append_nil] at distinct ⊢
      rwa [← List.append_assoc (current.without omitted), ← swap, List.append_assoc])
    rw [step]
    exact blocksOf_append_congr rest.reverse (blocksOf_swap edits keep (Ne.symm other) after)

/-- On its way down an edit does the same with what is behind it. -/
theorem blocksOf_shiftDown (kept : omitted ≠ .keep) (before : List (Edit α)) {current : Edit α}
    (after : List (Edit α)) (edits : current.action ≠ .keep) (shown : current.action ≠ omitted)
    (distinct : (without omitted (before.reverse ++ current :: after)).Nodup) :
    blocksOf (shiftDown before current after).script =
      blocksOf (before.reverse ++ current :: after) := by
  fun_induction shiftDown before current after with
  | case1 => rfl
  | case2 => rfl
  | case3 before current next rest keep shared moved ih =>
    have none : shared = [] := Edit.eq_nil_of_shared shown (keep ▸ kept.symm) (nodup_pair distinct)
      (fun _ mem => (commonPrefix_prefix_left _ _).subset mem)
      (fun _ mem => (commonPrefix_prefix_right _ _).subset mem)
    have empty : next = ⟨.keep, []⟩ := by
      have items : next.items = [] := Classical.byContradiction fun h => moved ⟨none, h⟩
      cases next
      simp_all
    have gone : edit .keep (([] : List α).drop 0) ++ rest = rest := rfl
    have same : (⟨current.action, current.items.drop 0 ++ []⟩ : Edit α) = current := by
      simp
    subst empty
    simp only [none, List.length_nil, gone, same, List.isEmpty_nil, if_true, dite_eq_ite] at ih ⊢
    have step := ih edits shown (by
      simpa only [without_append, without_cons, Edit.without_keep kept, List.nil_append]
        using distinct)
    rw [step]
    apply blocksOf_append_congr before.reverse
    exact blocksOf_append_congr [current] (blocksOf_keep_nil rest).symm
  | case4 before current next rest keep same ih =>
    have step := ih edits shown (by
      simp only [without_append, without_cons, Edit.without_merge rfl same, List.append_assoc]
        at distinct ⊢
      exact distinct)
    rw [step]
    exact blocksOf_append_congr before.reverse (blocksOf_merge rfl same rest)
  | case5 before current next rest keep other ih =>
    have swap := Edit.without_swap kept edits keep (Ne.symm other)
    have step := ih edits shown (by
      simp only [List.reverse_cons, without_append, without_cons, without_nil, List.append_nil,
        List.append_assoc] at distinct ⊢
      rwa [← List.append_assoc (next.without omitted), ← swap, List.append_assoc])
    rw [step, List.reverse_cons, List.append_assoc]
    exact blocksOf_append_congr before.reverse (blocksOf_swap keep edits other rest)

theorem blocksOf_compactFrom (kept : omitted ≠ .keep) {action : Action} (edits : action ≠ .keep)
    (shown : action ≠ omitted) (steps : Nat) (before after : List (Edit α))
    (distinct : (without omitted (before.reverse ++ after)).Nodup) :
    blocksOf (compactFrom action steps before after) = blocksOf (before.reverse ++ after) := by
  fun_induction compactFrom action steps before after with
  | case1 => rfl
  | case2 => rw [List.append_nil]
  | case3 steps before e rest same up down ih =>
    subst same
    have moves : up.current.action ≠ .keep := by
      rw [action_shiftUp]
      exact edits
    have upward := without_shiftUp kept before rest edits
    have downward := without_shiftDown kept up.before up.after moves
    rw [← upward] at distinct
    have place : (down.current :: down.before).reverse ++ down.after = down.script := by
      rw [List.reverse_cons, List.append_assoc]
      rfl
    rw [ih (by rw [place, downward]; exact distinct), place,
      blocksOf_shiftDown kept up.before up.after moves (by rw [action_shiftUp]; exact shown)
        distinct]
    exact blocksOf_shiftUp kept before rest edits shown (by rw [← upward]; exact distinct)
  | case4 steps before e rest other ih =>
    have place : (e :: before).reverse ++ rest = before.reverse ++ e :: rest := by
      rw [List.reverse_cons, List.append_assoc]
      rfl
    rw [place] at ih
    exact ih distinct

/-- Compaction leaves the blocks of a script as they are if neither of the two lists has an item
twice. -/
theorem blocksOf_compact {script : List (Edit α)} (old : (source script).Nodup)
    (new : (target script).Nodup) : blocksOf (compact script) = blocksOf script := by
  have deletions : without .delete (compactAction .delete script) = target script := by
    rw [compactAction, without_compactFrom (by decide) (by decide), List.reverse_nil,
      List.nil_append, target_eq_without]
  have first : blocksOf (compactAction .delete script) = blocksOf script := by
    apply blocksOf_compactFrom (show Action.insert ≠ .keep by decide) (by decide) (by decide)
    exact old
  rw [compact, ← first]
  apply blocksOf_compactFrom (show Action.delete ≠ .keep by decide) (by decide) (by decide)
  rw [List.reverse_nil, List.nil_append, deletions]
  exact new

theorem patch_of_nodup {old new : List α} (oldDistinct : old.Nodup) (newDistinct : new.Nodup) :
    patch old new = hunks (blocksOf (diff old new)).2 (blocksOf (diff old new)).1 := by
  have same : blocksOf (compact (diff old new)) = blocksOf (diff old new) := by
    apply blocksOf_compact
    · rwa [source_diff]
    · rwa [target_diff]
  rw [patch, same]

/-! Common ends. -/

theorem commonPrefix_append_left (front as bs : List α) :
    commonPrefix (front ++ as) (front ++ bs) = front ++ commonPrefix as bs := by
  induction front with
  | nil => rfl
  | cons item rest ih =>
    rw [List.cons_append, List.cons_append, commonPrefix, if_pos rfl, ih, List.cons_append]

theorem commonSuffix_append_right (as bs back : List α) :
    commonSuffix (as ++ back) (bs ++ back) = commonSuffix as bs ++ back := by
  rw [commonSuffix, List.reverse_append, List.reverse_append, commonPrefix_append_left,
    List.reverse_append, List.reverse_reverse, commonSuffix]

/-- Different lists without repeated items start to differ before a common end begins. -/
theorem commonPrefix_append_right {as bs back : List α} (other : as ≠ bs)
    (left : (as ++ back).Nodup) (right : (bs ++ back).Nodup) :
    commonPrefix (as ++ back) (bs ++ back) = commonPrefix as bs := by
  induction as generalizing bs with
  | nil =>
    obtain ⟨b, bs, rfl⟩ := List.exists_cons_of_ne_nil (Ne.symm other)
    cases back with
    | nil => rfl
    | cons item back =>
      have differ : item ≠ b := by
        rintro rfl
        rw [List.cons_append, List.nodup_cons] at right
        exact right.1 (List.mem_append_right bs List.mem_cons_self)
      rw [List.nil_append, List.cons_append, commonPrefix, if_neg differ]
      rfl
  | cons a as ih =>
    cases bs with
    | nil =>
      cases back with
      | nil => rfl
      | cons item back =>
        have differ : a ≠ item := by
          rintro rfl
          rw [List.cons_append, List.nodup_cons] at left
          exact left.1 (List.mem_append_right as List.mem_cons_self)
        rw [List.nil_append, List.cons_append, commonPrefix, if_neg differ]
        rfl
    | cons b bs =>
      rw [List.cons_append, List.nodup_cons] at left right
      rw [List.cons_append, List.cons_append, commonPrefix, commonPrefix]
      split
      · rename_i same
        subst same
        rw [ih (fun eq => other (by rw [eq])) left.2 right.2]
      · rfl

omit [DecidableEq α] in
theorem dropEnd_append_right (items part back : List α) :
    dropEnd (items ++ back) (part ++ back).length = dropEnd items part.length := by
  have count : (items ++ back).length - (part ++ back).length = items.length - part.length := by
    rw [List.length_append, List.length_append]
    omega
  rw [dropEnd, count, List.take_append_of_le_length (Nat.sub_le _ _), dropEnd]

theorem trim_append_left (front as bs : List α) :
    trim (front ++ as) (front ++ bs) =
      { trim as bs with front := front ++ (trim as bs).front } := by
  simp only [trim, commonPrefix_append_left, List.length_append, List.drop_length_add_append]

theorem trim_append_right {as bs back : List α} (other : as ≠ bs)
    (left : (as ++ back).Nodup) (right : (bs ++ back).Nodup) :
    trim (as ++ back) (bs ++ back) =
      { trim as bs with back := (trim as bs).back ++ back } := by
  have shorter := (commonPrefix_prefix_left as bs).length_le
  have within := (commonPrefix_prefix_right as bs).length_le
  simp only [trim, commonPrefix_append_right other left right,
    List.drop_append_of_le_length shorter, List.drop_append_of_le_length within,
    commonSuffix_append_right, dropEnd_append_right]

omit [DecidableEq α] in
theorem blocksOf_edit_keep (items : List α) (rest : List (Edit α)) :
    blocksOf (edit .keep items ++ rest) = blocksOf (⟨.keep, items⟩ :: rest) := by
  cases items with
  | nil => exact (blocksOf_keep_nil rest).symm
  | cons item items => rfl

omit [DecidableEq α] in
/-- A kept run behind a script belongs to the run behind its last block. -/
theorem blocksOf_append_keep (script : List (Edit α)) (items back : List α) :
    blocksOf (script ++ edit .keep (items ++ back)) =
      ((blocksOf (script ++ edit .keep items)).1,
        (blocksOf (script ++ edit .keep items)).2 ++ back) := by
  induction script with
  | nil => cases items <;> cases back <;> simp [edit, blocksOf]
  | cons e rest ih =>
    rw [List.cons_append, List.cons_append, blocksOf, blocksOf, ih]
    obtain ⟨blocks, tail⟩ := blocksOf (rest ++ edit .keep items)
    obtain ⟨action, run⟩ := e
    cases action <;> cases blocks <;> simp

/-- What two lists start with is one more kept run in front of the script between the rests. -/
theorem blocksOf_diff_append_left (front as bs : List α) :
    blocksOf (diff (front ++ as) (front ++ bs)) = blocksOf (⟨.keep, front⟩ :: diff as bs) := by
  rw [diff_eq, diff_eq as bs, trim_append_left]
  simp only [List.append_assoc]
  have merged := blocksOf_merge (a := ⟨.keep, front⟩) (b := ⟨.keep, (trim as bs).front⟩) rfl rfl
  rw [blocksOf_edit_keep]
  refine (merged _).trans ?_
  exact blocksOf_append_congr [⟨.keep, front⟩] (blocksOf_edit_keep _ _).symm

/-- What two lists end with stays behind the script between the rests. -/
theorem blocksOf_diff_append_right {as bs back : List α} (left : (as ++ back).Nodup)
    (right : (bs ++ back).Nodup) :
    blocksOf (diff (as ++ back) (bs ++ back)) =
      ((blocksOf (diff as bs)).1, (blocksOf (diff as bs)).2 ++ back) := by
  by_cases same : as = bs
  · subst same
    rw [diff_self, diff_self]
    exact blocksOf_append_keep [] as back
  · rw [diff_eq, diff_eq as bs, trim_append_right same left right]
    exact blocksOf_append_keep _ (trim as bs).back back

end MusicLibrary.Merge
