import MusicLibrary.Proofs.Track.MergePolicy
import MusicLibrary.Track.Update

/-! A change in the file, merged into a track. The columns that are told are exactly those that
change, so a track of which none is told need not be written. What was edited in the library stays
where the file has not changed, no text or number is lost to the file, and times of events move one
way only. There is a merge exactly if the counters can follow the file. -/

namespace MusicLibrary.Track

/-- The counters of a track can follow a change of the file. -/
def CountersCanFollow (stored old new : Track) : Prop :=
  ∀ column : Column, column.policy = .accumulate →
    column.type.CanFollow (stored.get column) (old.get column) (new.get column)

variable {stored old new result : Track} {now : Timestamp} {changed : List Column}

theorem isSome_mergeColumns?_iff :
    (mergeColumns? stored old new).isSome = true ↔ stored.CountersCanFollow old new := by
  have whole : (mergeColumns? stored old new).isSome =
      Column.all.all fun column => (mergeColumn? stored old new column).isSome := by
    rw [mergeColumns?]
    split
    · rename_i fits
      exact fits.symm
    · rename_i fails
      exact (Bool.eq_false_iff.2 fails).symm
  rw [whole, List.all_eq_true]
  exact ⟨fun h column => MergePolicy.isSome_merge?_iff.1 (h column (Column.mem_all column)),
    fun h column _ => MergePolicy.isSome_merge?_iff.2 (h column)⟩

theorem isSome_update?_iff :
    (stored.update? old new now).isSome = true ↔ stored.CountersCanFollow old new := by
  rw [← isSome_mergeColumns?_iff, update?]
  cases mergeColumns? stored old new <;> rfl

section

variable (h : stored.update? old new now = some (result, changed))
include h

theorem exists_merged_of_update? :
    ∃ merged, mergeColumns? stored old new = some merged ∧ changed = differences stored merged ∧
      result = { merged with
        dateModified := if changed.isEmpty then merged.dateModified else some now } := by
  obtain ⟨merged, columns, same⟩ := Option.bind_eq_some_iff.1 h
  cases same
  exact ⟨merged, columns, rfl, rfl⟩

theorem id_of_update? : result.id = stored.id := by
  obtain ⟨merged, columns, -, rfl⟩ := exists_merged_of_update? h
  exact (mergeColumns?_eq_some_iff.1 columns).1

theorem mergeColumn?_of_update? {column : Column} (other : column ≠ .dateModified) :
    mergeColumn? stored old new column = some (result.get column) := by
  obtain ⟨merged, columns, -, rfl⟩ := exists_merged_of_update? h
  rw [(mergeColumns?_eq_some_iff.1 columns).2]
  cases column with
  | dateModified => exact absurd rfl other
  | _ => rfl

/-- Every column whose policy looks at the file is merged by it; only the date of modification has
another one. -/
theorem merge?_of_update? {column : Column} {policy : MergePolicy} (own : column.policy = policy)
    (looks : policy ≠ .keepStored) :
    policy.merge? column.type (stored.get column) (old.get column) (new.get column) =
      some (result.get column) := by
  have other : column ≠ .dateModified := by
    rintro rfl
    exact looks own.symm
  rw [← own]
  exact mergeColumn?_of_update? h other

/-- The columns that an update tells are those in which the track differs from what it was. -/
theorem changed_of_update? :
    changed = Column.all.filter fun column =>
      column ≠ .dateModified ∧ result.get column ≠ stored.get column := by
  obtain ⟨merged, columns, told, -⟩ := exists_merged_of_update? h
  rw [told]
  refine List.filter_congr fun column _ => ?_
  rw [decide_eq_decide]
  by_cases stamp : column = .dateModified
  · subst stamp
    have kept := (mergeColumns?_eq_some_iff.1 columns).2 .dateModified
    exact iff_of_false (fun differs => differs (Option.some.inj kept)) (fun h => h.1 rfl)
  · have same := mergeColumn?_of_update? h stamp
    rw [(mergeColumns?_eq_some_iff.1 columns).2, Option.some.injEq] at same
    rw [same, ne_comm]
    exact ⟨fun differs => ⟨stamp, differs⟩, fun h => h.2⟩

theorem dateModified_of_update? :
    result.dateModified = if changed = [] then stored.dateModified else some now := by
  obtain ⟨merged, columns, -, rfl⟩ := exists_merged_of_update? h
  have kept : stored.dateModified = merged.dateModified :=
    Option.some.inj ((mergeColumns?_eq_some_iff.1 columns).2 .dateModified)
  rw [kept]
  simp only [List.isEmpty_iff]

/-- A time that is kept as the earliest one is never put off. -/
theorem exists_earliest_of_update? (column : Column) (policy : column.policy = .earliest)
    {t : column.Value} (set : stored.get column = some t) :
    ∃ first, result.get column = some first ∧ column.type.before t first = false := by
  have merged := merge?_of_update? h policy nofun
  rw [set] at merged
  exact MergePolicy.exists_merge?_earliest merged

/-- A time that is kept as the latest one is never put back. -/
theorem exists_latest_of_update? (column : Column) (policy : column.policy = .latest)
    {t : column.Value} (set : stored.get column = some t) :
    ∃ last, result.get column = some last ∧ column.type.before last t = false := by
  have merged := merge?_of_update? h policy nofun
  rw [set] at merged
  exact MergePolicy.exists_merge?_latest merged

end

/-- A merge that changes no column leaves every column as the policies say. -/
theorem mergeColumn?_of_update?_nil (h : stored.update? old new now = some (result, []))
    (column : Column) : mergeColumn? stored old new column = some (stored.get column) := by
  obtain ⟨merged, columns, none, -⟩ := exists_merged_of_update? h
  rw [(mergeColumns?_eq_some_iff.1 columns).2]
  by_contra differs
  have mem : column ∈ differences stored merged :=
    mem_differences.2 fun same => differs (congrArg some same.symm)
  rw [← none] at mem
  cases mem

theorem nodup_labels : (Column.all.map Column.label).Nodup := by decide +kernel

/-- What an update does to a track, and what it tells of it. -/
theorem update_tells_changes {stored old new : Track} (fits : stored.CountersCanFollow old new)
    (now : Timestamp) :
    ∃ result changed, stored.update? old new now = some (result, changed) ∧
      changed = Column.all.filter (fun column =>
        column ≠ .dateModified ∧ result.get column ≠ stored.get column) ∧
      (changed.map Column.label).Nodup ∧
      result.dateModified = (if changed = [] then stored.dateModified else some now) ∧
      result.id = stored.id ∧
      (∀ column : Column, column.policy = .overwrite ∨ column.policy = .overwriteIfPresent ∨
          column.policy = .accumulate →
        old.get column = new.get column → result.get column = stored.get column) ∧
      (∀ column : Column, column.policy = .overwriteIfPresent →
        (stored.get column).isSome = true → (result.get column).isSome = true) ∧
      (∀ t, stored.dateAdded = some t →
        ∃ kept, result.dateAdded = some kept ∧ kept.ms ≤ t.ms) ∧
      (∀ t, stored.playDate = some t → ∃ kept, result.playDate = some kept ∧ t.ms ≤ kept.ms) ∧
      ∀ t, stored.skipDate = some t → ∃ kept, result.skipDate = some kept ∧ t.ms ≤ kept.ms := by
  obtain ⟨⟨result, changed⟩, update⟩ := Option.isSome_iff_exists.1 (isSome_update?_iff.2 fits)
  have told := changed_of_update? update
  refine ⟨result, changed, update, told, ?_, dateModified_of_update? update, id_of_update? update,
    ?_, ?_, ?_, ?_, ?_⟩
  · rw [told]
    exact nodup_labels.sublist (List.filter_sublist.map _)
  · intro column policy unchanged
    have looks : column.policy ≠ .keepStored := by
      rcases policy with policy | policy | policy <;> simp [policy]
    have merged := merge?_of_update? update rfl looks
    rw [← unchanged] at merged
    exact MergePolicy.merge?_of_unchanged policy merged
  · intro column policy set
    exact MergePolicy.isSome_merge?_overwriteIfPresent set (merge?_of_update? update policy nofun)
  · intro t set
    obtain ⟨first, kept, order⟩ := exists_earliest_of_update? update .dateAdded rfl set
    exact ⟨first, kept, FieldType.ms_le_of_not_before order⟩
  · intro t set
    obtain ⟨last, kept, order⟩ := exists_latest_of_update? update .playDate rfl set
    exact ⟨last, kept, FieldType.ms_le_of_not_before order⟩
  · intro t set
    obtain ⟨last, kept, order⟩ := exists_latest_of_update? update .skipDate rfl set
    exact ⟨last, kept, FieldType.ms_le_of_not_before order⟩

/-- A track that was played so often. -/
def played (times : Int64) : Track := { id := ⟨1⟩, playCount := some times }

theorem countersCanFollow_played : (played 5).CountersCanFollow (played 1) (played 4) := by
  intro column counter
  cases column with
  | playCount | skipCount => exact ⟨by decide, by decide⟩
  | _ => cases counter

theorem update_tells_changes_played :
    (played 5).CountersCanFollow (played 1) (played 4) ∧
      ∃ result changed, (played 5).update? (played 1) (played 4) ⟨9⟩ = some (result, changed) ∧
        result.playCount = some 8 ∧ changed = [.playCount] ∧ result.dateModified = some ⟨9⟩ := by
  obtain ⟨result, changed, update, -, -, stamp, -⟩ :=
    update_tells_changes countersCanFollow_played ⟨9⟩
  have known : (played 5).update? (played 1) (played 4) ⟨9⟩ =
      some ({ played 8 with dateModified := some ⟨9⟩ }, [.playCount]) := by
    decide +kernel
  cases known.symm.trans update
  exact ⟨countersCanFollow_played, _, _, known, rfl, rfl, stamp⟩

end MusicLibrary.Track
