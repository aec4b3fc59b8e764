import MusicLibrary.Merge.Patch

/-! Merging compares items and does nothing else with them: if all items are renamed and different
ones stay different, the result of a merge is renamed with them. So lists can be merged in any
written form of their items. -/

namespace MusicLibrary.Merge

variable {α β : Type}

def Edit.map (f : α → β) (e : Edit α) : Edit β := ⟨e.action, e.items.map f⟩

@[simp] theorem Edit.action_map (f : α → β) (e : Edit α) : (e.map f).action = e.action := rfl

@[simp] theorem Edit.items_map (f : α → β) (e : Edit α) : (e.map f).items = e.items.map f := rfl

@[simp] theorem map_edit (f : α → β) (action : Action) (items : List α) :
    (edit action items).map (Edit.map f) = edit action (items.map f) := by
  cases items <;> rfl

@[simp] theorem map_dropEnd (f : α → β) (items : List α) (count : Nat) :
    (dropEnd items count).map f = dropEnd (items.map f) count := by
  simp [dropEnd, List.map_take]

def Focus.map (f : α → β) (focus : Focus α) : Focus β :=
  ⟨focus.before.map (Edit.map f), focus.current.map f, focus.after.map (Edit.map f)⟩

theorem keepBefore_map (f : α → β) (items : List α) (edits : List (Edit α)) :
    keepBefore (items.map f) (edits.map (Edit.map f)) =
      (keepBefore items edits).map (Edit.map f) := by
  rcases edits with _ | ⟨⟨action, first⟩, rest⟩
  · rfl
  · cases action <;> simp [keepBefore, Edit.map]

theorem keepAfter_map (f : α → β) (items : List α) (edits : List (Edit α)) :
    keepAfter (items.map f) (edits.map (Edit.map f)) =
      (keepAfter items edits).map (Edit.map f) := by
  rcases edits with _ | ⟨⟨action, last⟩, rest⟩
  · rfl
  · cases action <;> simp [keepAfter, Edit.map]

theorem weight_map (f : α → β) (script : List (Edit α)) :
    weight (script.map (Edit.map f)) = weight script := by
  induction script with
  | nil => rfl
  | cons e rest ih => simp [ih]

/-! Patches. -/

def Block.map (f : α → β) (b : Block α) : Block β := ⟨b.gap.map f, b.removed.map f, b.added.map f⟩

def Hunk.map (f : α → β) (h : Hunk α) : Hunk β :=
  ⟨h.skipped.map f, h.before.map f, h.after.map f⟩

def Line.map (f : α → β) (l : Line α) : Line β := ⟨f l.item, l.patched⟩

theorem addEdit_map (f : α → β) (removed added : List α) (blocks : List (Block α)) :
    addEdit (removed.map f) (added.map f) (blocks.map (Block.map f)) =
      (addEdit removed added blocks).map (Block.map f) := by
  rcases blocks with _ | ⟨⟨gap, r, a⟩, rest⟩
  · rfl
  · cases gap <;> simp [addEdit, Block.map]

theorem blocksOf_map (f : α → β) (script : List (Edit α)) :
    blocksOf (script.map (Edit.map f)) =
      ((blocksOf script).1.map (Block.map f), (blocksOf script).2.map f) := by
  induction script with
  | nil => rfl
  | cons e rest ih =>
    obtain ⟨action, items⟩ := e
    cases action with
    | keep =>
      cases blocks : (blocksOf rest).1 with
      | nil => simp [blocksOf, ih, blocks]
      | cons b more => simp [blocksOf, ih, blocks, Block.map]
    | delete => simp [blocksOf, ih, ← addEdit_map]
    | insert => simp [blocksOf, ih, ← addEdit_map]

theorem isClose_map (f : α → β) (b : Block α) (later : List (Block α)) (tail : List α) :
    isClose (b.map f) (later.map (Block.map f)) (tail.map f) = isClose b later tail := by
  have behind : (b.map f).removed ++
      (later.map (Block.map f)).flatMap (fun b => b.gap ++ b.removed) ++ tail.map f =
        (b.removed ++ later.flatMap (fun b => b.gap ++ b.removed) ++ tail).map f := by
    simp [Block.map, List.flatMap_map, List.map_flatMap]
  rw [isClose, behind, List.isEmpty_map, isClose, Block.map, List.length_map]

theorem hunksFrom_map (f : α → β) (tail : List α) (hunk : Hunk α) (blocks : List (Block α)) :
    hunksFrom (tail.map f) (hunk.map f) (blocks.map (Block.map f)) =
      (hunksFrom tail hunk blocks).map (Hunk.map f) := by
  induction blocks generalizing hunk with
  | nil => simp [hunksFrom, Hunk.map, trail, List.map_take]
  | cons b later ih =>
    rw [List.map_cons, hunksFrom, isClose_map, hunksFrom]
    split
    · rw [← ih]
      simp [Hunk.map, Block.map]
    · rw [List.map_cons, ← ih]
      simp [Hunk.map, Block.map, trail, lead, unseen, List.map_take, List.map_drop]

theorem hunks_map (f : α → β) (tail : List α) (blocks : List (Block α)) :
    hunks (tail.map f) (blocks.map (Block.map f)) = (hunks tail blocks).map (Hunk.map f) := by
  cases blocks with
  | nil => rfl
  | cons b later =>
    rw [List.map_cons, hunks, hunks, ← hunksFrom_map]
    simp [Hunk.map, Block.map, lead, List.map_drop]

variable [DecidableEq α] [DecidableEq β] {f : α → β}

/-! Comparing. -/

theorem commonPrefix_map (injective : Function.Injective f) (as bs : List α) :
    commonPrefix (as.map f) (bs.map f) = (commonPrefix as bs).map f := by
  induction as generalizing bs with
  | nil => simp [commonPrefix]
  | cons a as ih =>
    cases bs with
    | nil => simp [commonPrefix]
    | cons b bs =>
      simp only [List.map_cons, commonPrefix, injective.eq_iff, ih]
      split <;> rfl

theorem commonSuffix_map (injective : Function.Injective f) (as bs : List α) :
    commonSuffix (as.map f) (bs.map f) = (commonSuffix as bs).map f := by
  rw [commonSuffix, ← List.map_reverse, ← List.map_reverse, commonPrefix_map injective,
    ← List.map_reverse, commonSuffix]

theorem runLength_map (injective : Function.Injective f) (a b : Array α) (x y : Nat) :
    runLength (a.map f) (b.map f) x y = runLength a b x y := by
  fun_induction runLength a b x y with
  | case1 x y inside same ih =>
    rw [runLength, dif_pos (by simpa using inside), if_pos (by simpa using congrArg f same), ih]
  | case2 x y inside differ =>
    rw [runLength, dif_pos (by simpa using inside), if_neg]
    simpa using fun same => differ (injective same)
  | case3 x y outside => rw [runLength, dif_neg (by simpa using outside)]

theorem middleSnake?_map (injective : Function.Injective f) (old new : List α) :
    middleSnake? (old.map f) (new.map f) = middleSnake? old new := by
  have forward (a b : List α) : forwardStep (a.map f).toArray (b.map f).toArray =
      forwardStep a.toArray b.toArray := by
    funext edits search diagonal
    simp only [forwardStep, ← List.map_toArray, Array.size_map, runLength_map injective]
  have backward (a b : List α) : backwardStep (a.map f).toArray (b.map f).toArray =
      backwardStep a.toArray b.toArray := by
    funext edits search diagonal
    simp only [backwardStep, ← List.map_toArray, Array.size_map, runLength_map injective]
  have round : searchRound (old.map f).toArray (new.map f).toArray (old.map f).reverse.toArray
      (new.map f).reverse.toArray =
        searchRound old.toArray new.toArray old.reverse.toArray new.reverse.toArray := by
    funext search edits
    simp only [searchRound, ← List.map_reverse, forward, backward]
  rw [middleSnake?, middleSnake?, round, List.length_map, List.length_map]

theorem cut?_map (injective : Function.Injective f) (old new : List α) :
    cut? (old.map f) (new.map f) = cut? old new := by
  simp only [cut?, List.isEmpty_map, List.length_map, middleSnake?_map injective]

theorem trim_map (injective : Function.Injective f) (old new : List α) :
    trim (old.map f) (new.map f) =
      ⟨(trim old new).front.map f, (trim old new).old.map f, (trim old new).new.map f,
        (trim old new).back.map f⟩ := by
  simp [trim, commonPrefix_map injective, commonSuffix_map injective, ← List.map_drop]

theorem diff_eq (old new : List α) :
    diff old new = edit .keep (trim old new).front ++
      (match cut? (trim old new).old (trim old new).new with
        | some (x, y) =>
          diff ((trim old new).old.take x) ((trim old new).new.take y) ++
            diff ((trim old new).old.drop x) ((trim old new).new.drop y)
        | none => edit .delete (trim old new).old ++ edit .insert (trim old new).new) ++
      edit .keep (trim old new).back := by
  conv => lhs; rw [diff]
  split
  · rename_i x y h
    simp only [h]
  · rename_i h
    simp only [h]

theorem diff_map (injective : Function.Injective f) (old new : List α) :
    diff (old.map f) (new.map f) = (diff old new).map (Edit.map f) := by
  induction old, new using diff.induct with
  | case1 old new ih₁ ih₂ =>
    rw [diff_eq, diff_eq, trim_map injective, cut?_map injective]
    cases h : cut? (trim old new).old (trim old new).new with
    | none => simp
    | some cut =>
      obtain ⟨x, y⟩ := cut
      simp [← List.map_take, ← List.map_drop, ih₁ x y h, ih₂ x y h]

/-! Compacting. -/

theorem shiftUp_map (injective : Function.Injective f) (before : List (Edit α)) (current : Edit α)
    (after : List (Edit α)) :
    shiftUp (before.map (Edit.map f)) (current.map f) (after.map (Edit.map f)) =
      (shiftUp before current after).map f := by
  fun_induction shiftUp before current after with
  | case1 => rw [List.map_nil, shiftUp]; rfl
  | case2 current after previous rest keep shared stays =>
    rw [List.map_cons, shiftUp, Edit.action_map, if_pos keep]
    simp only [Edit.action_map, Edit.items_map, commonSuffix_map injective]
    rw [dif_pos (by simpa using stays)]
    rfl
  | case3 current after previous rest keep shared moved ih =>
    simp only [dite_eq_ite] at ih
    rw [List.map_cons, shiftUp, Edit.action_map, if_pos keep]
    simp only [Edit.action_map, Edit.items_map, commonSuffix_map injective]
    rw [dif_neg (by simpa using moved), ← ih]
    congr 1
    · simp [shared]
    · simp [Edit.map, shared]
    · simp only [List.isEmpty_map, keepBefore_map]
      split <;> rfl
  | case4 current after previous rest keep same ih =>
    rw [List.map_cons, shiftUp, Edit.action_map, Edit.action_map, if_neg keep, if_pos same, ← ih]
    simp [Edit.map]
  | case5 current after previous rest keep other ih =>
    rw [List.map_cons, shiftUp, Edit.action_map, Edit.action_map, if_neg keep, if_neg other, ← ih]
    rfl

theorem shiftDown_map (injective : Function.Injective f) (before : List (Edit α))
    (current : Edit α) (after : List (Edit α)) :
    shiftDown (before.map (Edit.map f)) (current.map f) (after.map (Edit.map f)) =
      (shiftDown before current after).map f := by
  fun_induction shiftDown before current after with
  | case1 => rw [List.map_nil, shiftDown]; rfl
  | case2 before current next rest keep shared stays =>
    rw [List.map_cons, shiftDown, Edit.action_map, if_pos keep]
    simp only [Edit.action_map, Edit.items_map, commonPrefix_map injective]
    rw [dif_pos (by simpa using stays)]
    rfl
  | case3 before current next rest keep shared moved ih =>
    simp only [dite_eq_ite] at ih
    rw [List.map_cons, shiftDown, Edit.action_map, if_pos keep]
    simp only [Edit.action_map, Edit.items_map, commonPrefix_map injective]
    rw [dif_neg (by simpa using moved), ← ih]
    congr 1
    · simp only [List.isEmpty_map, keepAfter_map]
      split <;> rfl
    · simp [Edit.map, shared]
    · simp [shared]
  | case4 before current next rest keep same ih =>
    rw [List.map_cons, shiftDown, Edit.action_map, Edit.action_map, if_neg keep, if_pos same, ← ih]
    simp [Edit.map]
  | case5 before current next rest keep other ih =>
    rw [List.map_cons, shiftDown, Edit.action_map, Edit.action_map, if_neg keep, if_neg other, ← ih]
    rfl

theorem compactFrom_map (injective : Function.Injective f) (action : Action) (steps : Nat)
    (before after : List (Edit α)) :
    compactFrom action steps (before.map (Edit.map f)) (after.map (Edit.map f)) =
      (compactFrom action steps before after).map (Edit.map f) := by
  fun_induction compactFrom action steps before after with
  | case1 => simp [compactFrom]
  | case2 => simp [compactFrom]
  | case3 steps before e rest same up down ih =>
    rw [List.map_cons, compactFrom, Edit.action_map, if_pos same, shiftUp_map injective, ← ih]
    simp only [Focus.map, shiftDown_map injective, List.map_cons, down, up]
  | case4 steps before e rest other ih =>
    rw [List.map_cons, compactFrom, Edit.action_map, if_neg other, ← ih]
    rfl

theorem compact_map (injective : Function.Injective f) (script : List (Edit α)) :
    compact (script.map (Edit.map f)) = (compact script).map (Edit.map f) := by
  have shift (action : Action) (script : List (Edit α)) :
      compactAction action (script.map (Edit.map f)) =
        (compactAction action script).map (Edit.map f) := by
    rw [compactAction, weight_map]
    exact compactFrom_map injective action (weight script) [] script
  rw [compact, shift, shift, compact]

theorem patch_map (injective : Function.Injective f) (old new : List α) :
    patch (old.map f) (new.map f) = (patch old new).map (Hunk.map f) := by
  simp only [patch, diff_map injective, compact_map injective, blocksOf_map, hunks_map]

/-! Applying. -/

theorem fits_map (injective : Function.Injective f) (image : List (Line α)) (items : List α)
    (position : Nat) :
    fits (image.map (Line.map f)) (items.map f) position = fits image items position := by
  have found : ((image.map (Line.map f)).drop position).take items.length =
      ((image.drop position).take items.length).map (Line.map f) := by
    rw [← List.map_drop, ← List.map_take]
  have same : (((image.drop position).take items.length).map (f ·.item) == items.map f) =
      (((image.drop position).take items.length).map (·.item) == items) := by
    rw [Bool.eq_iff_iff, beq_iff_eq, beq_iff_eq, ← List.map_inj_right injective, List.map_map]
    rfl
  simp only [fits, List.length_map, found, List.map_map, List.all_map]
  change (_ && ((image.drop position).take items.length).map (f ·.item) == items.map f && _) = _
  rw [same]
  rfl

theorem applyHunk_map (injective : Function.Injective f) (image : List (Line α)) (expected : Nat)
    (hunk : Hunk α) :
    applyHunk (image.map (Line.map f)) expected (hunk.map f) =
      (applyHunk image expected hunk).map (List.map (Line.map f)) := by
  have test : fits (image.map (Line.map f)) (hunk.map f).before = fits image hunk.before := by
    funext position
    exact fits_map injective image hunk.before position
  rw [applyHunk, applyHunk, test, List.length_map, Option.map_map]
  congr 1
  funext position
  simp [Hunk.map, Line.map, List.map_take, List.map_drop]

theorem applyHunks_map (injective : Function.Injective f) (image : List (Line α)) (done : Nat)
    (hunks : List (Hunk α)) :
    applyHunks (image.map (Line.map f)) done (hunks.map (Hunk.map f)) =
      (applyHunks image done hunks).map (List.map (Line.map f)) := by
  induction hunks generalizing image done with
  | nil => rfl
  | cons hunk rest ih =>
    have skipped : (hunk.map f).skipped.length = hunk.skipped.length := List.length_map f
    have after : (hunk.map f).after.length = hunk.after.length := List.length_map f
    simp only [List.map_cons, applyHunks, skipped, after, applyHunk_map injective]
    cases applyHunk image (done + hunk.skipped.length) hunk with
    | none => rfl
    | some image => exact ih image _

/-- A patch between renamed lists does to a renamed list what the patch does to the list. -/
theorem applyPatch_map (injective : Function.Injective f) (old new list : List α) :
    applyPatch (patch (old.map f) (new.map f)) (list.map f) =
      (applyPatch (patch old new) list).map (List.map f) := by
  have image : (list.map f).map (Line.mk · false) =
      (list.map (Line.mk · false)).map (Line.map f) := by
    simp [Line.map, Function.comp_def]
  rw [applyPatch, applyPatch, patch_map injective, image, applyHunks_map injective,
    Option.map_map, Option.map_map]
  congr 1
  funext lines
  simp [Line.map, Function.comp_def]

end MusicLibrary.Merge
