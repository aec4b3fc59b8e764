import MusicLibrary.Proofs.Track.Update

/-! Counters at the ends of their range. What the file has counted on is a difference of two words,
and the counter a sum of two. Where both are words the counter follows the file and never goes down;
where one is not, the calculation overflows, and there is no track that the change makes. -/

namespace MusicLibrary

namespace Track

/-- A change of the file is merged into a track exactly if each of its counters can follow it; then
no counter is lowered, and each one has grown by what the file has counted on. -/
theorem counter_follows_iff (stored old new : Track) (now : Timestamp) :
    ((stored.update? old new now).isSome = true ↔
      ∀ column : Column, column.policy = .accumulate →
        let growth := column.type.count (new.get column) - column.type.count (old.get column)
        FitsWord growth ∧ column.type.count (stored.get column) + max 0 growth < 2 ^ 63) ∧
    ∀ result changed, stored.update? old new now = some (result, changed) →
      ∀ column : Column, column.policy = .accumulate →
        let growth := column.type.count (new.get column) - column.type.count (old.get column)
        column.type.count (stored.get column) ≤ column.type.count (result.get column) ∧
          column.type.count (result.get column) =
            column.type.count (stored.get column) + max 0 growth := by
  refine ⟨isSome_update?_iff.trans ⟨fun fits column policy => ?_, fun fits column policy => ?_⟩,
    fun result changed update column policy => ?_⟩
  · exact ⟨(fits column policy).growth, (fits column policy).sum⟩
  · exact ⟨(fits column policy).1, (fits column policy).2⟩
  · have merged := merge?_of_update? update policy nofun
    have count := (MergePolicy.accumulated?_eq_some merged).2.count
    refine ⟨?_, count⟩
    rw [count]
    omega

/-- From one play the file goes down to the end of the range: nothing is to be added, but the
difference lies beyond the range. -/
theorem not_follows_fallen :
    FitsWord (5 + max 0 (-9223372036854775808 - 1)) ∧
      (played 5).update? (played 1) (played (-9223372036854775808)) ⟨9⟩ = none := by
  decide +kernel

end Track

end MusicLibrary
