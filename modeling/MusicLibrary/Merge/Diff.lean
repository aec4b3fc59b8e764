import MusicLibrary.Merge.Script
import MusicLibrary.Merge.Snake

/-! The difference of two lists: what they have in common at both ends is kept, and the rest is cut
at the middle snake and compared part by part. -/

namespace MusicLibrary.Merge

variable {α : Type} [DecidableEq α]

/-- Two lists without what they have in common at both ends. -/
structure Trimmed (α : Type) where
  front : List α
  old : List α
  new : List α
  back : List α

/-- Takes off the longest common front, and of what is left the longest common back. -/
def trim (old new : List α) : Trimmed α :=
  let front := commonPrefix old new
  let back := commonSuffix (old.drop front.length) (new.drop front.length)
  ⟨front, dropEnd (old.drop front.length) back.length, dropEnd (new.drop front.length) back.length,
    back⟩

theorem trim_old (old new : List α) :
    (trim old new).front ++ (trim old new).old ++ (trim old new).back = old := by
  simp only [trim, List.append_assoc]
  rw [dropEnd_append_of_suffix (commonSuffix_suffix_left _ _),
    append_drop_of_prefix (commonPrefix_prefix_left old new)]

theorem trim_new (old new : List α) :
    (trim old new).front ++ (trim old new).new ++ (trim old new).back = new := by
  simp only [trim, List.append_assoc]
  rw [dropEnd_append_of_suffix (commonSuffix_suffix_right _ _),
    append_drop_of_prefix (commonPrefix_prefix_right old new)]

theorem length_trim_le (old new : List α) :
    (trim old new).old.length ≤ old.length ∧ (trim old new).new.length ≤ new.length := by
  simp only [trim, dropEnd, List.length_take, List.length_drop]
  omega

/-- Where two lists are cut, if there is a cut that leaves something on both sides. -/
def cut? (old new : List α) : Option (Nat × Nat) :=
  if old.isEmpty || new.isEmpty then none
  else (middleSnake? old new).filter fun (x, y) =>
    let size := min x old.length + min y new.length
    0 < size && size < old.length + new.length

theorem lt_of_cut? {old new : List α} {x y : Nat} (h : cut? old new = some (x, y)) :
    0 < min x old.length + min y new.length ∧
      min x old.length + min y new.length < old.length + new.length := by
  unfold cut? at h
  split at h
  · simp at h
  · simpa [Option.filter_eq_some_iff] using (Option.filter_eq_some_iff.1 h).2

def diff (old new : List α) : List (Edit α) :=
  edit .keep (trim old new).front ++
    (match _h : cut? (trim old new).old (trim old new).new with
      | some (x, y) =>
        diff ((trim old new).old.take x) ((trim old new).new.take y) ++
          diff ((trim old new).old.drop x) ((trim old new).new.drop y)
      | none => edit .delete (trim old new).old ++ edit .insert (trim old new).new) ++
    edit .keep (trim old new).back
termination_by old.length + new.length
decreasing_by all_goals
  have := length_trim_le old new
  have := lt_of_cut? _h
  simp only [List.length_take, List.length_drop]
  omega

/-- The script leads from the one list to the other one. -/
theorem source_target_diff (old new : List α) :
    source (diff old new) = old ∧ target (diff old new) = new := by
  induction old, new using diff.induct with
  | case1 old new ih₁ ih₂ =>
    have ends := And.intro (trim_old old new) (trim_new old new)
    rw [diff]
    split
    · rename_i x y h
      have rejoin (i : Nat) (items tail : List α) :
          items.take i ++ (items.drop i ++ tail) = items ++ tail := by
        rw [← List.append_assoc, List.take_append_drop]
      simpa [Edit.source, Edit.target, ih₁ x y h, ih₂ x y h, rejoin] using ends
    · simpa [Edit.source, Edit.target] using ends

@[simp] theorem source_diff (old new : List α) : source (diff old new) = old :=
  (source_target_diff old new).1

@[simp] theorem target_diff (old new : List α) : target (diff old new) = new :=
  (source_target_diff old new).2

end MusicLibrary.Merge
