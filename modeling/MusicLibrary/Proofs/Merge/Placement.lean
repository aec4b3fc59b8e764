import Mathlib.Data.List.Nodup
import MusicLibrary.Proofs.Merge.Patch

/-! Where hunks fit. A hunk replaces a run of items that no earlier hunk has put in; if none of the
items that are left stands twice, there is one such run at most, and where the search for it starts
makes no difference. -/

namespace MusicLibrary.Merge

variable {α : Type}

/-- The items of an image that no hunk has put in. -/
def untouched (image : List (Line α)) : List α := items (image.filter (! ·.patched))

@[simp] theorem untouched_append (a b : List (Line α)) :
    untouched (a ++ b) = untouched a ++ untouched b := by
  rw [untouched, List.filter_append, items_append, untouched, untouched]

@[simp] theorem untouched_fresh (list : List α) : untouched (fresh list) = list := by
  have all : (fresh list).filter (! ·.patched) = fresh list := by
    apply List.filter_eq_self.2
    intro line mem
    obtain ⟨item, -, rfl⟩ := List.mem_map.1 mem
    rfl
  rw [untouched, all]
  exact items_line list false

@[simp] theorem untouched_patched (list : List α) : untouched (list.map (Line.mk · true)) = [] := by
  simp [untouched, items]

theorem mem_untouched {image : List (Line α)} {item : α} :
    item ∈ untouched image ↔ Line.mk item false ∈ image := by
  constructor
  · intro mem
    obtain ⟨⟨item, patched⟩, line, rfl⟩ := List.mem_map.1 mem
    obtain ⟨line, free⟩ := List.mem_filter.1 line
    have free : patched = false := by simpa using free
    rwa [← free]
  · intro mem
    exact List.mem_map.2 ⟨_, List.mem_filter.2 ⟨mem, rfl⟩, rfl⟩

/-- Two places of a run in an image are the same if nothing untouched stands in it twice. -/
theorem place_unique {front back front' back' : List (Line α)} {run : List α} (nonempty : run ≠ [])
    (distinct : (untouched (front ++ (fresh run ++ back))).Nodup)
    (same : front ++ (fresh run ++ back) = front' ++ (fresh run ++ back')) : front = front' := by
  obtain ⟨item, rest, rfl⟩ := List.exists_cons_of_ne_nil nonempty
  change front ++ Line.mk item false :: (fresh rest ++ back) =
    front' ++ Line.mk item false :: (fresh rest ++ back') at same
  simp only [untouched_append, untouched_fresh, List.cons_append, List.nodup_middle,
    List.nodup_cons, List.mem_append, not_or] at distinct
  have ahead : Line.mk item false ∉ front := fun mem =>
    distinct.1.1 (mem_untouched.2 mem)
  have behind : Line.mk item false ∉ fresh rest ++ back := fun mem => by
    have left := mem_untouched.2 mem
    rw [untouched_append, untouched_fresh, List.mem_append] at left
    exact left.elim distinct.1.2.1 distinct.1.2.2
  exact ((List.append_cons_inj_of_notMem ahead behind).1 same).1

theorem eq_fresh {image : List (Line α)} (free : ∀ line ∈ image, line.patched = false) :
    image = fresh (items image) := by
  rw [fresh, items, List.map_map, ← List.map_id image, List.map_map]
  apply List.map_congr_left
  intro line mem
  have same : Line.mk line.item line.patched = Line.mk line.item false := by rw [free line mem]
  exact same

variable [DecidableEq α]

/-- What fits at a place is a run of untouched items there. -/
theorem fits_iff {image : List (Line α)} {expected : List α} {position : Nat} :
    fits image expected position = true ↔
      ∃ front back, image = front ++ (fresh expected ++ back) ∧ position = front.length := by
  constructor
  · intro h
    simp only [fits, Bool.and_eq_true, decide_eq_true_eq, beq_iff_eq, List.all_eq_true,
      Bool.not_eq_eq_eq_not, Bool.not_true] at h
    obtain ⟨⟨le, found⟩, free⟩ := h
    have run : (image.drop position).take expected.length = fresh expected := by
      rw [eq_fresh free]
      exact congrArg fresh found
    refine ⟨image.take position, (image.drop position).drop expected.length, ?_, ?_⟩
    · rw [← run, List.take_append_drop, List.take_append_drop]
    · rw [List.length_take, Nat.min_eq_left le]
  · rintro ⟨front, back, rfl, rfl⟩
    exact fits_fresh front expected back

theorem mem_interleave {n : Nat} {as bs : List Nat} : n ∈ interleave as bs ↔ n ∈ as ∨ n ∈ bs := by
  fun_induction interleave as bs with
  | case1 => simp
  | case2 => simp
  | case3 a as b bs ih =>
    simp only [List.mem_cons, ih]
    tauto

/-- Every place within a list is tried. -/
theorem mem_positions {position expected length : Nat} (within : position < length) :
    position ∈ positions expected length := by
  simp only [positions, List.mem_cons, mem_interleave, List.mem_reverse, List.mem_range,
    List.mem_map]
  rcases Nat.lt_trichotomy position (min expected length) with less | same | more
  · exact .inr (.inl less)
  · exact .inl same
  · right
    right
    refine ⟨position - min expected length, ?_, by omega⟩
    simp only [List.range_eq_range', List.drop_range', List.mem_range'_1]
    omega

/-- A hunk that is applied replaces a run of untouched items. -/
theorem applyHunk_eq_some {image result : List (Line α)} {expected : Nat} {hunk : Hunk α}
    (h : applyHunk image expected hunk = some result) :
    ∃ front back, image = front ++ (fresh hunk.before ++ back) ∧
      result = front ++ hunk.after.map (Line.mk · true) ++ back := by
  obtain ⟨position, found, rfl⟩ := Option.map_eq_some_iff.1 h
  obtain ⟨front, back, rfl, rfl⟩ := fits_iff.1 (List.find?_some found)
  refine ⟨front, back, rfl, ?_⟩
  have behind : (fresh hunk.before ++ back).drop hunk.before.length = back :=
    List.drop_left' (List.length_map _)
  rw [List.take_left, List.drop_length_add_append, behind]

/-- Wherever it is expected, a hunk finds its only place. -/
theorem applyHunk_unique {front back : List (Line α)} {hunk : Hunk α} (nonempty : hunk.before ≠ [])
    (distinct : (untouched (front ++ (fresh hunk.before ++ back))).Nodup) (expected : Nat) :
    applyHunk (front ++ (fresh hunk.before ++ back)) expected hunk =
      some (front ++ hunk.after.map (Line.mk · true) ++ back) := by
  cases applied : applyHunk (front ++ (fresh hunk.before ++ back)) expected hunk with
  | none =>
    rw [applyHunk, Option.map_eq_none_iff, List.find?_eq_none] at applied
    have within : front.length < (front ++ (fresh hunk.before ++ back)).length := by
      have pos := List.length_pos_iff.2 nonempty
      simp only [List.length_append, fresh, List.length_map]
      omega
    exact absurd (fits_fresh front hunk.before back) (applied _ (mem_positions within))
  | some result =>
    obtain ⟨front', back', same, rfl⟩ := applyHunk_eq_some applied
    obtain rfl := place_unique nonempty distinct same
    obtain rfl := List.append_cancel_left (List.append_cancel_left same)
    rfl

/-- Hunks that expect something each are applied to a list without repeated items as if it were
their own source, although they start to look for their places somewhere else. -/
theorem applyHunks_distinct (hunks : List (Hunk α)) (front : List (Line α)) (rest : List α)
    (done : Nat) (nonempty : ∀ h ∈ hunks, h.before ≠ [])
    (distinct : (untouched (front ++ fresh (hunks.flatMap Hunk.source ++ rest))).Nodup) :
    (applyHunks (front ++ fresh (hunks.flatMap Hunk.source ++ rest)) done hunks).map items =
      some (items front ++ (hunks.flatMap Hunk.target ++ rest)) := by
  induction hunks generalizing front done with
  | nil => simp [applyHunks, fresh]
  | cons hunk later ih =>
    have place : front ++ fresh ((hunk :: later).flatMap Hunk.source ++ rest) =
        front ++ fresh hunk.skipped ++
          (fresh hunk.before ++ fresh (later.flatMap Hunk.source ++ rest)) := by
      simp [fresh, Hunk.source]
    rw [place] at distinct ⊢
    rw [applyHunks, applyHunk_unique (nonempty hunk List.mem_cons_self) distinct]
    change (applyHunks (front ++ fresh hunk.skipped ++ hunk.after.map (Line.mk · true) ++
      fresh (later.flatMap Hunk.source ++ rest)) _ later).map items = _
    rw [ih]
    · simp [fresh, Hunk.target]
    · intro h mem
      exact nonempty h (List.mem_cons_of_mem hunk mem)
    · -- What the hunk replaces is no longer there, and all else stays in its order.
      refine List.Nodup.sublist ?_ distinct
      simp only [untouched_append, untouched_fresh, untouched_patched, List.append_nil]
      apply List.Sublist.append_left
      exact List.sublist_append_right hunk.before _

end MusicLibrary.Merge
