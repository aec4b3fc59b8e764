import MusicLibrary.Merge.Patch
import MusicLibrary.Proofs.Merge.Compact

/-! What a patch says and does. Its hunks, each behind the items that it skips, lead from the old
list to the new one; applying a hunk takes out what it expects and puts in what it brings. Hence a
patch turns its own source into its target, and in any other list it changes the count of an item
by as much. -/

namespace MusicLibrary.Merge

variable {α : Type}

/-! Blocks. -/

def Block.source (b : Block α) : List α := b.gap ++ b.removed

def Block.target (b : Block α) : List α := b.gap ++ b.added

theorem flatMap_source_addEdit (removed added : List α) (blocks : List (Block α)) :
    (addEdit removed added blocks).flatMap Block.source =
      removed ++ blocks.flatMap Block.source := by
  unfold addEdit
  split <;> simp [Block.source]

theorem flatMap_target_addEdit (removed added : List α) (blocks : List (Block α)) :
    (addEdit removed added blocks).flatMap Block.target =
      added ++ blocks.flatMap Block.target := by
  unfold addEdit
  split <;> simp [Block.target]

/-- The blocks of a script and the run behind them are the two ends of the script. -/
theorem source_target_blocksOf (script : List (Edit α)) :
    (blocksOf script).1.flatMap Block.source ++ (blocksOf script).2 = source script ∧
      (blocksOf script).1.flatMap Block.target ++ (blocksOf script).2 = target script := by
  induction script with
  | nil => exact ⟨rfl, rfl⟩
  | cons e rest ih =>
    obtain ⟨action, items⟩ := e
    obtain ⟨left, right⟩ := ih
    rw [source_cons, target_cons, ← left, ← right]
    cases action with
    | keep =>
      cases blocks : (blocksOf rest).1 with
      | nil => simp [blocksOf, blocks, Edit.source, Edit.target]
      | cons b more => simp [blocksOf, blocks, Edit.source, Edit.target, Block.source, Block.target]
    | delete =>
      simp [blocksOf, Edit.source, Edit.target, flatMap_source_addEdit, flatMap_target_addEdit]
    | insert =>
      simp [blocksOf, Edit.source, Edit.target, flatMap_source_addEdit, flatMap_target_addEdit]

/-! Hunks. -/

/-- What a hunk is about in the old list. -/
def Hunk.source (h : Hunk α) : List α := h.skipped ++ h.before

/-- What becomes of it in the new list. -/
def Hunk.target (h : Hunk α) : List α := h.skipped ++ h.after

theorem dropEnd_append_lead (items : List α) : dropEnd items contextLength ++ lead items = items :=
  List.take_append_drop _ items

theorem trail_append_drop (items : List α) : trail items ++ items.drop contextLength = items :=
  List.take_append_drop _ items

/-- A gap between two hunks is the context of the one, what neither shows, and the context of the
other. -/
theorem trail_unseen_lead {gap : List α} (wide : 2 * contextLength ≤ gap.length) :
    trail gap ++ (unseen gap ++ lead gap) = gap := by
  have behind : lead gap = lead (gap.drop contextLength) := by
    simp only [contextLength] at wide
    simp only [lead, List.drop_drop, List.length_drop, contextLength]
    congr 1
    omega
  rw [behind, unseen, dropEnd_append_lead, trail_append_drop]

theorem wide_of_not_isClose {b : Block α} {later : List (Block α)} {tail : List α}
    (h : isClose b later tail = false) : 2 * contextLength ≤ b.gap.length := by
  simp only [isClose, Bool.or_eq_false_iff, decide_eq_false_iff_not] at h
  omega

theorem hunksFrom_lead (tail : List α) (hunk : Hunk α) (blocks : List (Block α)) :
    (hunksFrom tail hunk blocks).flatMap Hunk.source ++ tail.drop contextLength =
        hunk.source ++ blocks.flatMap Block.source ++ tail ∧
      (hunksFrom tail hunk blocks).flatMap Hunk.target ++ tail.drop contextLength =
        hunk.target ++ blocks.flatMap Block.target ++ tail := by
  induction blocks generalizing hunk with
  | nil => simp [hunksFrom, Hunk.source, Hunk.target, trail_append_drop]
  | cons b later ih =>
    rw [hunksFrom]
    split
    -- A block that is close joins the hunk; any other one ends it, and the gap in between is cut.
    · obtain ⟨left, right⟩ := ih ⟨hunk.skipped, hunk.before ++ b.gap ++ b.removed,
        hunk.after ++ b.gap ++ b.added⟩
      rw [left, right]
      simp [Hunk.source, Hunk.target, Block.source, Block.target]
    · rename_i apart
      obtain ⟨left, right⟩ := ih ⟨unseen b.gap, lead b.gap ++ b.removed, lead b.gap ++ b.added⟩
      have gap := trail_unseen_lead (wide_of_not_isClose (Bool.eq_false_iff.2 apart))
      have source : b.source = trail b.gap ++ (unseen b.gap ++ lead b.gap) ++ b.removed := by
        rw [gap, Block.source]
      have target : b.target = trail b.gap ++ (unseen b.gap ++ lead b.gap) ++ b.added := by
        rw [gap, Block.target]
      constructor
      · rw [List.flatMap_cons, List.append_assoc, left, List.flatMap_cons, source]
        simp [Hunk.source]
      · rw [List.flatMap_cons, List.append_assoc, right, List.flatMap_cons, target]
        simp [Hunk.target]

theorem hunks_lead (tail : List α) (blocks : List (Block α)) :
    ∃ rest, rest <:+ tail ∧
      (hunks tail blocks).flatMap Hunk.source ++ rest = blocks.flatMap Block.source ++ tail ∧
        (hunks tail blocks).flatMap Hunk.target ++ rest =
          blocks.flatMap Block.target ++ tail := by
  cases blocks with
  | nil => exact ⟨tail, List.suffix_rfl, rfl, rfl⟩
  | cons b later =>
    obtain ⟨source, target⟩ := hunksFrom_lead tail
      ⟨dropEnd b.gap contextLength, lead b.gap ++ b.removed, lead b.gap ++ b.added⟩ later
    refine ⟨tail.drop contextLength, List.drop_suffix _ _, ?_, ?_⟩
    · rw [hunks, source, List.flatMap_cons, Hunk.source, Block.source, ← List.append_assoc,
        dropEnd_append_lead]
    · rw [hunks, target, List.flatMap_cons, Hunk.target, Block.target, ← List.append_assoc,
        dropEnd_append_lead]

/-- The hunks of a patch, each behind the items that it skips, lead from the old list to the new
one; what is behind the last hunk is the same in both. -/
theorem patch_leads [DecidableEq α] (old new : List α) :
    ∃ rest, (patch old new).flatMap Hunk.source ++ rest = old ∧
      (patch old new).flatMap Hunk.target ++ rest = new := by
  obtain ⟨left, right⟩ := source_target_blocksOf (compact (diff old new))
  rw [source_compact, source_diff] at left
  rw [target_compact, target_diff] at right
  obtain ⟨rest, -, source, target⟩ := hunks_lead (blocksOf (compact (diff old new))).2
    (blocksOf (compact (diff old new))).1
  exact ⟨rest, source.trans left, target.trans right⟩

/-! Applying. -/

def fresh (items : List α) : List (Line α) := items.map (Line.mk · false)

def items (image : List (Line α)) : List α := image.map (·.item)

@[simp] theorem items_append (a b : List (Line α)) : items (a ++ b) = items a ++ items b :=
  List.map_append

@[simp] theorem items_line (list : List α) (patched : Bool) :
    items (list.map (Line.mk · patched)) = list := by
  simp [items, Function.comp_def]

variable [DecidableEq α]

/-- A hunk fits where the items that it expects stand and are still those of the list. -/
theorem fits_fresh (front : List (Line α)) (expected : List α) (back : List (Line α)) :
    fits (front ++ (fresh expected ++ back)) expected front.length = true := by
  have found : (fresh expected ++ back).take expected.length = fresh expected :=
    List.take_left' (List.length_map _)
  rw [fits, List.drop_left, found]
  simp [fresh, Function.comp_def]

/-- Where what a hunk expects stands at the place where it is expected, it is replaced there. -/
theorem applyHunk_fresh (front : List (Line α)) (hunk : Hunk α) (back : List (Line α)) :
    applyHunk (front ++ (fresh hunk.before ++ back)) front.length hunk =
      some (front ++ hunk.after.map (Line.mk · true) ++ back) := by
  have start : min front.length (front ++ (fresh hunk.before ++ back)).length = front.length := by
    rw [List.length_append]
    omega
  have behind : (fresh hunk.before ++ back).drop hunk.before.length = back :=
    List.drop_left' (List.length_map _)
  rw [applyHunk, positions, start, List.find?_cons_of_pos (fits_fresh front hunk.before back),
    Option.map_some, List.take_left, List.drop_length_add_append, behind]

/-- Applied to what they were made from, hunks put the new list together from the front: all in
front of a place is done, and all behind it is as it was. -/
theorem applyHunks_source (hunks : List (Hunk α)) (front : List (Line α)) (rest : List α) :
    (applyHunks (front ++ fresh (hunks.flatMap Hunk.source ++ rest)) front.length hunks).map items =
      some (items front ++ (hunks.flatMap Hunk.target ++ rest)) := by
  induction hunks generalizing front with
  | nil => simp [applyHunks, fresh]
  | cons hunk later ih =>
    -- The hunk fits at the first place that is tried, so no other place counts, even if the same
    -- items stand there as well.
    have place : front ++ fresh ((hunk :: later).flatMap Hunk.source ++ rest) =
        front ++ fresh hunk.skipped ++
          (fresh hunk.before ++ fresh (later.flatMap Hunk.source ++ rest)) := by
      simp [fresh, Hunk.source]
    have expected : front.length + hunk.skipped.length =
        (front ++ fresh hunk.skipped).length := by
      simp [fresh]
    have done : front.length + hunk.skipped.length + hunk.after.length =
        (front ++ fresh hunk.skipped ++ hunk.after.map (Line.mk · true)).length := by
      simp [fresh, Nat.add_assoc]
    rw [applyHunks, done, place, expected, applyHunk_fresh]
    change (applyHunks (front ++ fresh hunk.skipped ++ hunk.after.map (Line.mk · true) ++
      fresh (later.flatMap Hunk.source ++ rest)) _ later).map items = _
    rw [ih]
    simp [fresh, Hunk.target]

theorem applyPatch_patch (old new : List α) : applyPatch (patch old new) old = some new := by
  obtain ⟨rest, source, target⟩ := patch_leads old new
  have applied := applyHunks_source (patch old new) [] rest
  rw [source, target] at applied
  exact applied

theorem commonPrefix_self (list : List α) : commonPrefix list list = list := by
  induction list with
  | nil => rfl
  | cons item rest ih => rw [commonPrefix, if_pos rfl, ih]

theorem trim_self (list : List α) : trim list list = ⟨list, [], [], []⟩ := by
  simp [trim, commonPrefix_self, commonSuffix, dropEnd]

theorem diff_self (list : List α) : diff list list = edit .keep list := by
  rw [diff, trim_self]
  simp only []
  split
  · rename_i cut
    simp [cut?] at cut
  · simp [edit]

/-- There is nothing to change between a list and itself. -/
theorem patch_self (list : List α) : patch list list = [] := by
  rw [patch, diff_self, compact_edit_keep]
  cases list <;> rfl

/-! Counting. -/

/-- What fits is among the items of the list. -/
theorem items_of_fits {image : List (Line α)} {expected : List α} {position : Nat}
    (h : fits image expected position = true) :
    items (image.take position) ++ expected ++ items (image.drop (position + expected.length)) =
      items image := by
  simp only [fits, Bool.and_eq_true, beq_iff_eq] at h
  have found : items ((image.drop position).take expected.length) = expected := h.1.2
  calc items (image.take position) ++ expected ++ items (image.drop (position + expected.length))
      = items (image.take position) ++ (items ((image.drop position).take expected.length) ++
          items ((image.drop position).drop expected.length)) := by
        rw [found, List.drop_drop, List.append_assoc]
    _ = items image := by
        rw [← items_append, List.take_append_drop, ← items_append, List.take_append_drop]

theorem count_applyHunk {image result : List (Line α)} {expected : Nat} {hunk : Hunk α}
    (h : applyHunk image expected hunk = some result) (a : α) :
    (items result).count a + hunk.before.count a = (items image).count a + hunk.after.count a := by
  obtain ⟨position, found, rfl⟩ := Option.map_eq_some_iff.1 h
  rw [← items_of_fits (List.find?_some found)]
  simp only [items_append, items_line, List.count_append]
  omega

theorem count_applyHunks {hunks : List (Hunk α)} {image result : List (Line α)} {done : Nat}
    (h : applyHunks image done hunks = some result) (a : α) :
    (items result).count a + (hunks.flatMap Hunk.source).count a =
      (items image).count a + (hunks.flatMap Hunk.target).count a := by
  induction hunks generalizing image done with
  | nil => simp_all [applyHunks]
  | cons hunk later ih =>
    obtain ⟨next, first, others⟩ := Option.bind_eq_some_iff.1 h
    have step := count_applyHunk first a
    have rest := ih others
    simp only [List.flatMap_cons, List.count_append, Hunk.source, Hunk.target] at rest ⊢
    omega

/-- A patch changes the count of an item in any list by what it changes in its own source. -/
theorem count_applyPatch {old new list merged : List α}
    (h : applyPatch (patch old new) list = some merged) (a : α) :
    merged.count a + old.count a = list.count a + new.count a := by
  obtain ⟨rest, source, target⟩ := patch_leads old new
  obtain ⟨result, applied, rfl⟩ := Option.map_eq_some_iff.1 h
  have counts := count_applyHunks applied a
  have before := congrArg (List.count a) source
  have after := congrArg (List.count a) target
  rw [items_line] at counts
  rw [List.count_append] at before after
  change (items result).count a + _ = _
  omega

end MusicLibrary.Merge
