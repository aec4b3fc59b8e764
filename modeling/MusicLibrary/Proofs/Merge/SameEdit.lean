import Mathlib.Data.List.Infix
import MusicLibrary.Proofs.Merge.Context
import MusicLibrary.Proofs.Merge.Placement

/-! Patches on the list that they lead to. A hunk that fits there although its change has been made
already finds what it expects within what it brings, so it can only add items. Hence, where no item
stands twice, a patch that moves or removes anything does not fit. -/

namespace MusicLibrary.Merge

open scoped List

variable {α : Type}

/-! Runs of untouched items. -/

theorem prefix_of_patched {run : List α} {front back : List (Line α)} {line : Line α}
    (patched : line.patched = true) (h : fresh run <+: front ++ line :: back) :
    fresh run <+: front := by
  induction front generalizing run with
  | nil =>
    cases run with
    | nil => exact List.nil_prefix
    | cons item rest =>
      have same := (List.cons_prefix_cons.1 h).1
      rw [← same] at patched
      cases patched
  | cons first front ih =>
    cases run with
    | nil => exact List.nil_prefix
    | cons item rest =>
      obtain ⟨same, tail⟩ := List.cons_prefix_cons.1 h
      exact List.cons_prefix_cons.2 ⟨same, ih tail⟩

/-- An untouched run does not reach over an item that was put in. -/
theorem infix_of_patched {run : List α} {front back : List (Line α)} {line : Line α}
    (patched : line.patched = true) (h : fresh run <:+: front ++ line :: back) :
    fresh run <:+: front ∨ fresh run <:+: back := by
  induction front with
  | nil =>
    rcases List.infix_cons_iff.1 h with start | behind
    · exact .inl (prefix_of_patched patched start).isInfix
    · exact .inr behind
  | cons first front ih =>
    rcases List.infix_cons_iff.1 h with start | behind
    · exact .inl (prefix_of_patched patched start).isInfix
    · rcases ih behind with inner | behind
      · exact .inl (inner.trans (List.suffix_cons first front).isInfix)
      · exact .inr behind

/-- What is left of a list in an image stands there as it stood in the list. -/
def Keeps (image : List (Line α)) (list : List α) : Prop :=
  ∀ run, fresh run <:+: image → run <:+: list

theorem keeps_fresh (list : List α) : Keeps (fresh list) list := by
  rintro run ⟨front, back, same⟩
  refine ⟨items front, items back, ?_⟩
  have items := congrArg Merge.items same
  simpa [fresh] using items

theorem Keeps.replace {front back : List (Line α)} {run after list : List α}
    (h : Keeps (front ++ (fresh run ++ back)) list) (nonempty : after ≠ []) :
    Keeps (front ++ after.map (Line.mk · true) ++ back) list := by
  have inFront : ∀ part, fresh part <:+: front → part <:+: list := fun part mem =>
    h part (mem.trans (List.prefix_append _ _).isInfix)
  have behind : ∀ part, fresh part <:+: back → part <:+: list := fun part mem =>
    h part (mem.trans ((List.suffix_append _ _).isInfix.trans (List.suffix_append _ _).isInfix))
  have inserted : ∀ (more : List α) part, fresh part <:+: more.map (Line.mk · true) ++ back →
      part <:+: list := by
    intro more part mem
    induction more with
    | nil => exact behind part mem
    | cons item more ih =>
      rcases List.infix_cons_iff.1 mem with start | rest
      -- An untouched run that starts with what was put in is empty.
      · exact inFront part ((prefix_of_patched rfl start).isInfix.trans List.nil_infix)
      · exact ih rest
  intro part mem
  obtain ⟨item, after, rfl⟩ := List.exists_cons_of_ne_nil nonempty
  rw [List.map_cons, List.append_assoc, List.cons_append] at mem
  rcases infix_of_patched rfl mem with ahead | rest
  · exact inFront part ahead
  · exact inserted after part rest

/-! The hunks of a patch on its target. -/

/-- Where a hunk stands in the new list: only at the ends of the list does it not start, or not
end, with an item that it keeps. -/
theorem patch_frame [DecidableEq α] {old new : List α} {h : Hunk α} (mem : h ∈ patch old new) :
    ∃ ahead behind, ahead ++ h.after ++ behind = new ∧ (h.Opens ∨ ahead = []) ∧
      (h.Closes ∨ behind = []) := by
  obtain ⟨front, back, place⟩ := List.append_of_mem mem
  change hunks (blocksOf (compact (diff old new))).2 (blocksOf (compact (diff old new))).1 = _
    at place
  obtain ⟨rest, short, -, target⟩ := hunks_lead (blocksOf (compact (diff old new))).2
    (blocksOf (compact (diff old new))).1
  have new_eq := (source_target_blocksOf (compact (diff old new))).2
  rw [target_compact, target_diff] at new_eq
  rw [new_eq, place] at target
  refine ⟨front.flatMap Hunk.target ++ h.skipped, back.flatMap Hunk.target ++ rest, ?_, ?_, ?_⟩
  · rw [← target]
    simp [Hunk.target]
  · rcases opens_of_hunks place with opens | ⟨rfl, none⟩
    · exact .inl opens
    · exact .inr none
  · rcases closes_of_hunks place with closes | ⟨rfl, none⟩
    · exact .inl closes
    · rw [none, List.suffix_nil] at short
      exact .inr short

/-- In a list without repeated items, what a hunk expects can only be found within what it
brings. -/
theorem before_infix_after {ahead behind : List α} {h : Hunk α}
    (distinct : (ahead ++ h.after ++ behind).Nodup)
    (opens : h.Opens ∨ ahead = []) (closes : h.Closes ∨ behind = [])
    (found : h.before <:+: ahead ++ h.after ++ behind) : h.before <:+: h.after := by
  obtain ⟨front, back, place⟩ := found
  have start : ahead <+: front := by
    rcases opens with ⟨item, before, after, left, right⟩ | rfl
    · rw [left, right, List.append_assoc, List.append_assoc] at place
      rw [right, List.append_assoc, List.cons_append, List.nodup_middle, List.nodup_cons,
        List.mem_append, not_or] at distinct
      have split := (List.append_cons_inj_of_notMem distinct.1.1 distinct.1.2).1 place.symm
      rw [split.1]
    · exact List.nil_prefix
  have finish : behind <:+ back := by
    rcases closes with ⟨item, before, after, left, right⟩ | rfl
    · have move : ahead ++ (after ++ [item]) ++ behind = (ahead ++ after) ++ item :: behind := by
        simp
      have moved : front ++ (before ++ [item]) ++ back = (front ++ before) ++ item :: back := by
        simp
      rw [left, right, move, moved] at place
      rw [right, move, List.nodup_middle, List.nodup_cons, List.mem_append, not_or] at distinct
      have split := (List.append_cons_inj_of_notMem distinct.1.1 distinct.1.2).1 place.symm
      rw [split.2.2]
    · exact List.nil_suffix
  obtain ⟨first, rfl⟩ := start
  obtain ⟨last, rfl⟩ := finish
  refine ⟨first, last, ?_⟩
  rw [List.append_assoc, List.append_assoc, List.append_assoc, ← List.append_assoc h.before,
    List.append_cancel_left_eq, ← List.append_assoc, ← List.append_assoc,
    List.append_cancel_right_eq, List.append_assoc] at place
  rw [List.append_assoc, place]

theorem sublist_of_before_sublist {hunks : List (Hunk α)}
    (each : ∀ h ∈ hunks, h.before <+ h.after) :
    hunks.flatMap Hunk.source <+ hunks.flatMap Hunk.target := by
  induction hunks with
  | nil => exact List.Sublist.refl []
  | cons h rest ih =>
    rw [List.flatMap_cons, List.flatMap_cons]
    apply List.Sublist.append
    · exact (each h List.mem_cons_self).append_left h.skipped
    · exact ih fun other mem => each other (List.mem_cons_of_mem h mem)

variable [DecidableEq α]

/-- What hunks that put something in expect, they find in the list as it was. -/
theorem before_infix_of_applyHunks {hunks : List (Hunk α)} {image result : List (Line α)}
    {list : List α} {done : Nat} (keeps : Keeps image list) (nonempty : ∀ h ∈ hunks, h.after ≠ [])
    (applied : applyHunks image done hunks = some result) :
    ∀ h ∈ hunks, h.before <:+: list := by
  induction hunks generalizing image done with
  | nil =>
    intro h mem
    exact absurd mem List.not_mem_nil
  | cons hunk later ih =>
    obtain ⟨next, first, others⟩ := Option.bind_eq_some_iff.1 applied
    obtain ⟨front, back, rfl, rfl⟩ := applyHunk_eq_some first
    have found : hunk.before <:+: list := by
      apply keeps
      exact ⟨front, back, List.append_assoc _ _ _⟩
    have kept := keeps.replace (nonempty hunk List.mem_cons_self)
    intro h mem
    rcases List.mem_cons.1 mem with rfl | mem
    · exact found
    · exact ih kept (fun h mem => nonempty h (List.mem_cons_of_mem hunk mem)) others h mem

/-- A patch that fits the list that it leads to, where no item stands twice there, only adds. -/
theorem sublist_of_applyPatch_target {old new merged : List α} (distinct : new.Nodup)
    (applied : applyPatch (patch old new) new = some merged) : old <+ new := by
  by_cases none : new = []
  · have counts := count_applyPatch applied
    rw [none] at counts ⊢
    have empty : old = [] := by
      apply List.eq_nil_iff_forall_not_mem.2
      intro item mem
      have positive := List.count_pos_iff.2 mem
      have count := counts item
      rw [List.count_nil] at count
      omega
    rw [empty]
  · have brings : ∀ h ∈ patch old new, h.after ≠ [] := by
      intro h mem empty
      obtain ⟨ahead, behind, whole, opens, closes⟩ := patch_frame mem
      have front : ahead = [] := by
        rcases opens with ⟨item, before, after, -, eq⟩ | eq
        · rw [empty] at eq
          cases eq
        · exact eq
      have back : behind = [] := by
        rcases closes with ⟨item, before, after, -, eq⟩ | eq
        · rw [empty] at eq
          exact absurd eq.symm (List.append_ne_nil_of_right_ne_nil _ (List.cons_ne_nil _ _))
        · exact eq
      rw [empty, front, back] at whole
      exact none whole.symm
    obtain ⟨result, fitted, -⟩ := Option.map_eq_some_iff.1 applied
    obtain ⟨rest, source, target⟩ := patch_leads old new
    have each : ∀ h ∈ patch old new, h.before <+ h.after := by
      intro h mem
      have found := before_infix_of_applyHunks (keeps_fresh new) brings fitted h mem
      obtain ⟨ahead, behind, rfl, opens, closes⟩ := patch_frame mem
      exact (before_infix_after distinct opens closes found).sublist
    have shorter := (sublist_of_before_sublist each).append_right rest
    rwa [source, target] at shorter

end MusicLibrary.Merge
