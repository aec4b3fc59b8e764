import MusicLibrary.Merge.Compact

/-! Compaction keeps the two ends of a script: wherever an edit is shifted to, the script leads from
the same list to the same list. Both ends are a script without the runs of one action, so each fact
is stated once for the two of them. -/

namespace MusicLibrary.Merge

variable {α : Type}

/-- The items of a run, or none if its action is left out. -/
def Edit.without (omitted : Action) (e : Edit α) : List α :=
  if e.action = omitted then [] else e.items

/-- The items of a script without the runs of one action. -/
def without (omitted : Action) (script : List (Edit α)) : List α :=
  script.flatMap (Edit.without omitted)

theorem source_eq_without (script : List (Edit α)) : source script = without .insert script := rfl

theorem target_eq_without (script : List (Edit α)) : target script = without .delete script := rfl

variable {omitted : Action}

@[simp] theorem without_nil : without omitted ([] : List (Edit α)) = [] := rfl

@[simp] theorem without_cons (e : Edit α) (rest : List (Edit α)) :
    without omitted (e :: rest) = e.without omitted ++ without omitted rest := rfl

@[simp] theorem without_append (a b : List (Edit α)) :
    without omitted (a ++ b) = without omitted a ++ without omitted b := by
  simp [without]

theorem Edit.without_of_ne {action : Action} (h : action ≠ omitted) (items : List α) :
    (Edit.mk action items).without omitted = items := if_neg h

/-- A run that is kept belongs to both ends. -/
theorem Edit.without_keep (kept : omitted ≠ .keep) (items : List α) :
    (Edit.mk .keep items).without omitted = items := without_of_ne kept.symm items

theorem without_edit_keep (kept : omitted ≠ .keep) (items : List α) :
    without omitted (edit .keep items) = items := by
  cases items with
  | nil => rfl
  | cons item rest => simp [edit, Edit.without_keep kept]

theorem without_reverse_edit_keep (kept : omitted ≠ .keep) (items : List α) :
    without omitted (edit .keep items).reverse = items := by
  cases items with
  | nil => rfl
  | cons item rest => simp [edit, Edit.without_keep kept]

theorem without_keepBefore (kept : omitted ≠ .keep) (items : List α) (edits : List (Edit α)) :
    without omitted (keepBefore items edits) = items ++ without omitted edits := by
  unfold keepBefore
  split
  · simp [Edit.without_keep kept]
  · simp [Edit.without_keep kept]

/-- The runs in front of an edit are listed from the nearest one on. -/
theorem without_reverse_keepAfter (kept : omitted ≠ .keep) (items : List α)
    (edits : List (Edit α)) :
    without omitted (keepAfter items edits).reverse =
      without omitted edits.reverse ++ items := by
  unfold keepAfter
  split
  · simp [Edit.without_keep kept]
  · simp [Edit.without_keep kept]

/-- Past items that are kept, an edit that ends with them becomes one that starts with them. -/
theorem Edit.append_without (omitted action : Action) (shared rest : List α) :
    shared ++ (Edit.mk action (rest ++ shared)).without omitted =
      (Edit.mk action (shared ++ rest)).without omitted ++ shared := by
  by_cases h : action = omitted
  · simp [Edit.without, h]
  · simp [Edit.without, h]

theorem Edit.without_merge {a b : Edit α} {action : Action} (ha : a.action = action)
    (hb : b.action = action) :
    (Edit.mk action (a.items ++ b.items)).without omitted =
      a.without omitted ++ b.without omitted := by
  by_cases h : action = omitted
  · simp [Edit.without, ha, hb, h]
  · simp [Edit.without, ha, hb, h]

/-- Of a deletion and an insertion one is left out, so their order does not show. -/
theorem Edit.without_swap {a b : Edit α} (kept : omitted ≠ .keep) (ha : a.action ≠ .keep)
    (hb : b.action ≠ .keep) (other : a.action ≠ b.action) :
    a.without omitted ++ b.without omitted = b.without omitted ++ a.without omitted := by
  have one : a.action = omitted ∨ b.action = omitted := by
    cases ea : a.action <;> cases eb : b.action <;> cases omitted <;> simp_all
  rcases one with left | right
  · simp [Edit.without, left]
  · simp [Edit.without, right]

variable [DecidableEq α]

theorem action_shiftUp (before : List (Edit α)) (current : Edit α) (after : List (Edit α)) :
    (shiftUp before current after).current.action = current.action := by
  fun_induction shiftUp before current after <;> simp_all

/-- An edit on its way up trades places with equal items, with an edit of the other kind, or takes
up one of its own kind. -/
theorem without_shiftUp (kept : omitted ≠ .keep) (before : List (Edit α)) {current : Edit α}
    (after : List (Edit α)) (edits : current.action ≠ .keep) :
    without omitted (shiftUp before current after).script =
      without omitted (before.reverse ++ current :: after) := by
  fun_induction shiftUp before current after with
  | case1 => rfl
  | case2 => rfl
  | case3 current after previous rest keep shared moved ih =>
    -- The kept items end as the edit does: what they share goes from in front of it to behind it.
    simp only [dite_eq_ite] at ih
    have behind : without omitted (if shared.isEmpty then after else keepBefore shared after) =
        shared ++ without omitted after := by
      cases shared with
      | nil => rfl
      | cons item items => simp [without_keepBefore kept]
    have front := dropEnd_append_of_suffix (commonSuffix_suffix_right current.items previous.items)
    have own := dropEnd_append_of_suffix (commonSuffix_suffix_left current.items previous.items)
    have shift := Edit.append_without omitted current.action shared
      (dropEnd current.items shared.length)
    have held : previous.without omitted = dropEnd previous.items shared.length ++ shared := by
      rw [front, Edit.without, if_neg (keep ▸ kept.symm)]
    rw [own] at shift
    simp only [ih edits, List.reverse_append, List.reverse_cons, without_append, without_cons,
      without_nil, without_reverse_edit_keep kept, behind, held, List.append_assoc,
      List.append_nil]
    rw [← List.append_assoc _ shared, ← shift, List.append_assoc]
  | case4 current after previous rest keep same ih =>
    simp only [ih edits, List.reverse_cons, without_append, without_cons, without_nil,
      Edit.without_merge same rfl, List.append_assoc, List.append_nil]
  | case5 current after previous rest keep other ih =>
    have swap := Edit.without_swap kept keep edits other
    simp only [ih edits, List.reverse_cons, without_append, without_cons, without_nil,
      List.append_assoc, List.append_nil]
    rw [← List.append_assoc (previous.without omitted), swap, List.append_assoc]

/-- An edit on its way down does the same with what is behind it. -/
theorem without_shiftDown (kept : omitted ≠ .keep) (before : List (Edit α)) {current : Edit α}
    (after : List (Edit α)) (edits : current.action ≠ .keep) :
    without omitted (shiftDown before current after).script =
      without omitted (before.reverse ++ current :: after) := by
  fun_induction shiftDown before current after with
  | case1 => rfl
  | case2 => rfl
  | case3 before current next rest keep shared moved ih =>
    simp only [dite_eq_ite] at ih
    have ahead :
        without omitted (if shared.isEmpty then before else keepAfter shared before).reverse =
          without omitted before.reverse ++ shared := by
      cases shared with
      | nil => simp
      | cons item items => simp [without_reverse_keepAfter kept]
    have back := append_drop_of_prefix (commonPrefix_prefix_right current.items next.items)
    have own := append_drop_of_prefix (commonPrefix_prefix_left current.items next.items)
    have shift := Edit.append_without omitted current.action shared
      (current.items.drop shared.length)
    have held : next.without omitted = shared ++ next.items.drop shared.length := by
      rw [back, Edit.without, if_neg (keep ▸ kept.symm)]
    rw [own] at shift
    simp only [ih edits, without_append, without_cons, without_edit_keep kept, ahead, held,
      List.append_assoc]
    rw [← List.append_assoc shared, shift, List.append_assoc]
  | case4 before current next rest keep same ih =>
    simp only [ih edits, without_append, without_cons, Edit.without_merge rfl same,
      List.append_assoc]
  | case5 before current next rest keep other ih =>
    have swap := Edit.without_swap kept edits keep (Ne.symm other)
    simp only [ih edits, List.reverse_cons, without_append, without_cons, without_nil,
      List.append_assoc, List.append_nil]
    rw [← List.append_assoc (current.without omitted), swap, List.append_assoc]

theorem without_compactFrom (kept : omitted ≠ .keep) {action : Action} (edits : action ≠ .keep)
    (steps : Nat) (before after : List (Edit α)) :
    without omitted (compactFrom action steps before after) =
      without omitted (before.reverse ++ after) := by
  fun_induction compactFrom action steps before after with
  | case1 => rfl
  | case2 => simp
  | case3 steps before e rest same up down ih =>
    have upward := without_shiftUp kept before rest (same ▸ edits)
    have moves : up.current.action ≠ .keep := by
      rw [action_shiftUp, same]
      exact edits
    have downward := without_shiftDown kept up.before up.after moves
    rw [ih, ← upward, List.reverse_cons, List.append_assoc]
    exact downward
  | case4 steps before e rest other ih =>
    rw [ih, List.reverse_cons, List.append_assoc]
    rfl

theorem without_compact (kept : omitted ≠ .keep) (script : List (Edit α)) :
    without omitted (compact script) = without omitted script := by
  rw [compact, compactAction, compactAction, without_compactFrom kept (by decide),
    List.reverse_nil, List.nil_append, without_compactFrom kept (by decide), List.reverse_nil,
    List.nil_append]

/-- A compacted script leads from the same list. -/
@[simp] theorem source_compact (script : List (Edit α)) :
    source (compact script) = source script := by
  rw [source_eq_without, without_compact (by decide), source_eq_without]

/-- A compacted script leads to the same list. -/
@[simp] theorem target_compact (script : List (Edit α)) :
    target (compact script) = target script := by
  rw [target_eq_without, without_compact (by decide), target_eq_without]

/-! Scripts without edits. -/

/-- A compaction has nothing to do where no edit is of its kind. -/
theorem compactAction_of_absent {action : Action} {script : List (Edit α)}
    (absent : ∀ e ∈ script, e.action ≠ action) : compactAction action script = script := by
  suffices go : ∀ steps before, compactFrom action steps before script = before.reverse ++ script by
    exact go _ []
  intro steps before
  fun_induction compactFrom action steps before script with
  | case1 => rfl
  | case2 => simp
  | case3 _ _ e rest same => exact absurd same (absent e List.mem_cons_self)
  | case4 _ _ e rest _ ih =>
    rw [ih fun e' h => absent e' (List.mem_cons_of_mem e h), List.reverse_cons, List.append_assoc]
    rfl

theorem compact_edit_keep (items : List α) :
    compact (edit .keep items) = edit .keep items := by
  have kept : ∀ e ∈ edit .keep items, e.action = .keep := by
    cases items <;> simp [edit]
  have absent {action : Action} (other : .keep ≠ action) : ∀ e ∈ edit .keep items,
      e.action ≠ action := fun e h => kept e h ▸ other
  rw [compact, compactAction_of_absent (absent (by decide)),
    compactAction_of_absent (absent (by decide))]

end MusicLibrary.Merge
