import MusicLibrary.Track.Basic
import MusicLibrary.Track.MergePolicy

/-! Merging the change of a track in a library file into the stored track, column by column. -/

namespace MusicLibrary.Track

/-- What becomes of a column, unless a number leaves the range of a word. -/
def mergeColumn? (stored old new : Track) (column : Column) : Option (Option column.Value) :=
  column.policy.merge? column.type (stored.get column) (old.get column) (new.get column)

/-- The track with all its columns merged, unless a number leaves the range of a word. -/
def mergeColumns? (stored old new : Track) : Option Track :=
  if Column.all.all fun column => (mergeColumn? stored old new column).isSome then
    some (ofColumns stored.id fun column => (mergeColumn? stored old new column).join)
  else none

/-- The columns in which two tracks differ, in order. -/
def differences (a b : Track) : List Column :=
  Column.all.filter fun column => a.get column ≠ b.get column

/-- The stored track after the change from one state of the file to another one, and the columns
that it changes. Any change stamps the date of modification. There is no such track if a counter
leaves the range of a word. -/
def update? (stored old new : Track) (now : Timestamp) : Option (Track × List Column) := do
  let merged ← mergeColumns? stored old new
  let changed := differences stored merged
  return ({ merged with
    dateModified := if changed.isEmpty then merged.dateModified else some now }, changed)

theorem mergeColumns?_eq_some_iff {stored old new merged : Track} :
    mergeColumns? stored old new = some merged ↔
      merged.id = stored.id ∧
        ∀ column, mergeColumn? stored old new column = some (merged.get column) := by
  rw [mergeColumns?, Option.ite_none_right_eq_some, List.all_eq_true, Option.some.injEq]
  constructor
  · rintro ⟨fits, rfl⟩
    refine ⟨rfl, fun column => ?_⟩
    obtain ⟨value, same⟩ := Option.isSome_iff_exists.mp (fits column (Column.mem_all column))
    rw [get_ofColumns, same, Option.join_some]
  · rintro ⟨id, columns⟩
    refine ⟨fun column _ => by rw [columns]; rfl, ext_columns id.symm fun column => ?_⟩
    rw [get_ofColumns, columns, Option.join_some]

theorem mem_differences {a b : Track} {column : Column} :
    column ∈ differences a b ↔ a.get column ≠ b.get column := by
  simp [differences]

end MusicLibrary.Track
