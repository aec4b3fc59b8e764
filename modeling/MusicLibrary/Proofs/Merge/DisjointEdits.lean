import MusicLibrary.PersistentId
import MusicLibrary.Proofs.Merge.Context
import MusicLibrary.Proofs.Merge.Distinct
import MusicLibrary.Proofs.Merge.Placement

/-! Edits that lie apart. Where one side has changed the front of a list and the other side its
back, with enough items in between that neither has touched, a merge takes over both changes. -/

namespace MusicLibrary.Merge

variable {α : Type}

theorem prefix_gap {items : List α} {rest : List (Edit α)} {first : Block α}
    {later : List (Block α)} (blocks : (blocksOf (⟨.keep, items⟩ :: rest)).1 = first :: later) :
    items <+: first.gap := by
  cases inner : (blocksOf rest).1 with
  | nil => simp [blocksOf, inner] at blocks
  | cons b more =>
    simp only [blocksOf, inner, List.cons.injEq] at blocks
    obtain ⟨rfl, -⟩ := blocks
    exact List.prefix_append items b.gap

theorem nodup_front {list middle back : List α} (h : (list ++ (middle ++ back)).Nodup) :
    (list ++ middle).Nodup :=
  h.sublist ((List.sublist_append_left middle back).append_left list)

theorem ne_nil_of_wide {middle : List α} (wide : contextLength ≤ middle.length) : middle ≠ [] := by
  apply List.ne_nil_of_length_pos
  rw [contextLength] at wide
  omega

variable [DecidableEq α]

/-- The common front of two lists is in the gap in front of the first edit. -/
theorem commonPrefix_prefix_gap {old new : List α} {first : Block α} {later : List (Block α)}
    (blocks : (blocksOf (diff old new)).1 = first :: later) :
    commonPrefix old new <+: first.gap := by
  rw [diff_eq, List.append_assoc, blocksOf_edit_keep] at blocks
  exact prefix_gap blocks

/-- Behind a common front of some length, the changes do not depend on what else is in front. -/
theorem patch_append_left {front old new : List α}
    (wide : contextLength ≤ (commonPrefix old new).length) (left : (front ++ old).Nodup)
    (right : (front ++ new).Nodup) :
    patch (front ++ old) (front ++ new) = behind front (patch old new) := by
  rw [patch_of_nodup left right, patch_of_nodup (List.nodup_append.1 left).2.1
    (List.nodup_append.1 right).2.1, blocksOf_diff_append_left, blocksOf]
  cases blocks : (blocksOf (diff old new)).1 with
  | nil => simp [blocks, hunks, behind]
  | cons first later =>
    have gap := (commonPrefix_prefix_gap blocks).length_le
    simp only [blocks]
    exact hunks_behind (Nat.le_trans wide gap) _ first.removed first.added later

/-- In front of a common back of some length, the changes do not depend on what else is behind. -/
theorem patch_append_right {old new middle back : List α} (wide : contextLength ≤ middle.length)
    (left : (old ++ (middle ++ back)).Nodup) (right : (new ++ (middle ++ back)).Nodup) :
    patch (old ++ (middle ++ back)) (new ++ (middle ++ back)) =
      patch (old ++ middle) (new ++ middle) := by
  have far : contextLength ≤ ((blocksOf (diff old new)).2 ++ middle).length := by
    rw [List.length_append]
    omega
  rw [patch_of_nodup left right, patch_of_nodup (nodup_front left) (nodup_front right),
    blocksOf_diff_append_right left right,
    blocksOf_diff_append_right (nodup_front left) (nodup_front right), ← List.append_assoc,
    hunks_append_tail far]

/-- A change behind some common items expects one of them in each of its hunks. -/
theorem before_ne_nil_of_common_front {middle old new : List α} (shared : middle ≠ [])
    (left : (middle ++ old).Nodup) (right : (middle ++ new).Nodup) {h : Hunk α}
    (mem : h ∈ patch (middle ++ old) (middle ++ new)) : h.before ≠ [] := by
  rw [patch_of_nodup left right] at mem
  cases blocks : (blocksOf (diff (middle ++ old) (middle ++ new))).1 with
  | nil =>
    rw [blocks] at mem
    exact absurd mem List.not_mem_nil
  | cons first later =>
    have gap := commonPrefix_prefix_gap blocks
    rw [commonPrefix_append_left] at gap
    rw [blocks] at mem
    apply (opens_of_mem_hunks _ mem).before_ne_nil
    intro none
    rw [none, List.prefix_nil, List.append_eq_nil_iff] at gap
    exact shared gap.1

/-- A change in front of some common items expects one of them in each of its hunks. -/
theorem before_ne_nil_of_common_back {middle old new : List α} (shared : middle ≠ [])
    (left : (old ++ middle).Nodup) (right : (new ++ middle).Nodup) {h : Hunk α}
    (mem : h ∈ patch (old ++ middle) (new ++ middle)) : h.before ≠ [] := by
  rw [patch_of_nodup left right, blocksOf_diff_append_right left right] at mem
  apply (closes_of_mem_hunks _ mem).before_ne_nil
  exact List.append_ne_nil_of_right_ne_nil _ shared

/-- A change behind a common middle is made in a list with another front. -/
theorem applyPatch_other_front {front front' middle old new : List α}
    (wide : contextLength ≤ middle.length) (base : (front ++ (middle ++ old)).Nodup)
    (theirs : (front' ++ (middle ++ old)).Nodup) (mine : (front ++ (middle ++ new)).Nodup) :
    applyPatch (patch (front ++ (middle ++ old)) (front ++ (middle ++ new)))
        (front' ++ (middle ++ old)) = some (front' ++ (middle ++ new)) := by
  have common : contextLength ≤ (commonPrefix (middle ++ old) (middle ++ new)).length := by
    rw [commonPrefix_append_left, List.length_append]
    omega
  obtain ⟨rest, source, target⟩ := patch_leads (middle ++ old) (middle ++ new)
  have distinct : (untouched (fresh front' ++ fresh ((patch (middle ++ old)
      (middle ++ new)).flatMap Hunk.source ++ rest))).Nodup := by
    rw [source, untouched_append, untouched_fresh, untouched_fresh]
    exact theirs
  have applied := applyHunks_distinct (patch (middle ++ old) (middle ++ new)) (fresh front') rest
    (0 + front.length) (fun h mem => before_ne_nil_of_common_front (ne_nil_of_wide wide)
      (List.nodup_append.1 base).2.1 (List.nodup_append.1 mine).2.1 mem) distinct
  rw [source, target] at applied
  rw [applyPatch, patch_append_left common base mine, applyHunks_behind, List.map_append]
  exact applied.trans (by rw [fresh, items_line])

/-- A change in front of a common middle is made in a list with another back. -/
theorem applyPatch_other_back {old new middle back back' : List α}
    (wide : contextLength ≤ middle.length) (base : (old ++ (middle ++ back)).Nodup)
    (mine : (new ++ (middle ++ back)).Nodup) (theirs : (old ++ (middle ++ back')).Nodup) :
    applyPatch (patch (old ++ (middle ++ back)) (new ++ (middle ++ back)))
        (old ++ (middle ++ back')) = some (new ++ (middle ++ back')) := by
  obtain ⟨rest, source, target⟩ := patch_leads (old ++ middle) (new ++ middle)
  have place : fresh ((patch (old ++ middle) (new ++ middle)).flatMap Hunk.source ++
      (rest ++ back')) = fresh (old ++ (middle ++ back')) := by
    rw [← List.append_assoc, source, List.append_assoc]
  have distinct : (untouched ([] ++ fresh ((patch (old ++ middle) (new ++ middle)).flatMap
      Hunk.source ++ (rest ++ back')))).Nodup := by
    rw [List.nil_append, place, untouched_fresh]
    exact theirs
  have applied := applyHunks_distinct (patch (old ++ middle) (new ++ middle)) [] (rest ++ back') 0
    (fun h mem => before_ne_nil_of_common_back (ne_nil_of_wide wide) (nodup_front base)
      (nodup_front mine) mem) distinct
  rw [List.nil_append, place, ← List.append_assoc _ rest, target] at applied
  rw [applyPatch, patch_append_right wide base mine]
  exact applied.trans (congrArg Option.some (List.append_assoc new middle back'))

/-- Edits in front of some items and edits behind them merge cleanly, whichever side has made
which, if there are at least three items in between and no list has an id twice. -/
theorem threeWay_disjoint {front front' middle back back' : List PersistentId}
    (wide : 3 ≤ middle.length) (base : (front ++ middle ++ back).Nodup)
    (front_changed : (front' ++ middle ++ back).Nodup)
    (back_changed : (front ++ middle ++ back').Nodup) :
    threeWay (front ++ middle ++ back) (front ++ middle ++ back') (front' ++ middle ++ back) =
        (front' ++ middle ++ back', true) ∧
      threeWay (front ++ middle ++ back) (front' ++ middle ++ back) (front ++ middle ++ back') =
        (front' ++ middle ++ back', true) := by
  simp only [List.append_assoc] at *
  constructor
  · rw [threeWay, applyPatch_other_front wide base front_changed back_changed]
  · rw [threeWay, applyPatch_other_back wide base front_changed back_changed]

/-- Two ids give way to another one in front, and one gives way to two others behind. -/
theorem threeWay_disjoint_bothEnds :
    let middle : List PersistentId := [⟨3⟩, ⟨4⟩, ⟨5⟩]
    let base := [⟨1⟩, ⟨2⟩] ++ middle ++ [⟨6⟩]
    let front_changed := [⟨9⟩] ++ middle ++ [⟨6⟩]
    let back_changed := [⟨1⟩, ⟨2⟩] ++ middle ++ [⟨7⟩, ⟨8⟩]
    3 ≤ middle.length ∧ base.Nodup ∧ front_changed.Nodup ∧ back_changed.Nodup ∧
      threeWay base back_changed front_changed = ([⟨9⟩, ⟨3⟩, ⟨4⟩, ⟨5⟩, ⟨7⟩, ⟨8⟩], true) ∧
      threeWay base front_changed back_changed = ([⟨9⟩, ⟨3⟩, ⟨4⟩, ⟨5⟩, ⟨7⟩, ⟨8⟩], true) := by
  intro middle base front_changed back_changed
  have wide : 3 ≤ middle.length := by decide
  have base_nodup : base.Nodup := by decide
  have front_nodup : front_changed.Nodup := by decide
  have back_nodup : back_changed.Nodup := by decide
  exact ⟨wide, base_nodup, front_nodup, back_nodup,
    threeWay_disjoint wide base_nodup front_nodup back_nodup⟩

end MusicLibrary.Merge
