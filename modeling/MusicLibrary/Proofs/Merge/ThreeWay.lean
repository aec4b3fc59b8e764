import MusicLibrary.Proofs.Merge.Patch
import MusicLibrary.Proofs.Merge.Renaming
import MusicLibrary.Proofs.PersistentId

/-! Three-way merges of lists of ids. A merge without a conflict neither loses nor invents an entry,
and where only one side has changed, its list is the result. That ids are compared and not their
written lines makes no difference. -/

namespace MusicLibrary.Merge

/-! The written form. -/

/-- A list of ids as a text, line by line. -/
def lines (ids : List PersistentId) : List String := ids.map PersistentId.hex

/-- The ids in the lines of a text; a line without one is passed over. -/
def readLines (lines : List String) : List PersistentId := lines.filterMap PersistentId.parse?

theorem readLines_lines (ids : List PersistentId) : readLines (lines ids) = ids := by
  induction ids with
  | nil => rfl
  | cons id rest ih =>
    rw [lines, List.map_cons, readLines, List.filterMap_cons, PersistentId.parse?_hex]
    exact congrArg (id :: ·) ih

/-- The changes from a base to one list, made in another list as changes of lines. -/
def threeWayLines (base mine theirs : List PersistentId) : List PersistentId × Bool :=
  match applyPatch (patch (lines base) (lines mine)) (lines theirs) with
  | some merged => (readLines merged, true)
  | none => (theirs, false)

/-- Merging lines comes to the same as merging ids. -/
theorem threeWayLines_eq (base mine theirs : List PersistentId) :
    threeWayLines base mine theirs = threeWay base mine theirs := by
  have applied := applyPatch_map PersistentId.hex_injective base mine theirs
  change applyPatch (patch (lines base) (lines mine)) (lines theirs) = _ at applied
  rw [threeWayLines, threeWay, applied]
  cases applyPatch (patch base mine) theirs with
  | none => rfl
  | some merged =>
    change (readLines (lines merged), true) = _
    rw [readLines_lines]

/-! Conservation. -/

/-- A merge without a conflict has every id as often as both sides together have it more than the
base; after a conflict the other list stands as it was. -/
theorem count_threeWay (base mine theirs : List PersistentId) :
    threeWayLines base mine theirs = threeWay base mine theirs ∧
      match threeWay base mine theirs with
      | (merged, true) =>
        ∀ id, merged.count id + base.count id = mine.count id + theirs.count id
      | (merged, false) => merged = theirs := by
  refine ⟨threeWayLines_eq base mine theirs, ?_⟩
  rw [threeWay]
  cases applied : applyPatch (patch base mine) theirs with
  | none => rfl
  | some merged =>
    intro id
    have count := count_applyPatch applied id
    omega

/-! One side. -/

/-- A list that only one side has changed becomes what that side made of it. -/
theorem threeWay_oneSided (base changed : List PersistentId) :
    threeWay base base changed = (changed, true) ∧
      threeWay base changed base = (changed, true) := by
  constructor
  · rw [threeWay, patch_self, applyPatch, applyHunks, Option.map_some]
    exact congrArg (·, true) (items_line changed false)
  · rw [threeWay, applyPatch_patch]

end MusicLibrary.Merge
