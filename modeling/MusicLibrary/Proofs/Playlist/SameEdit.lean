import MusicLibrary.Proofs.Merge.SameEdit
import MusicLibrary.Proofs.Playlist.MergeRule

/-! A change of tracks that has been made on both sides. The stored list is the one of the file
already, yet its changes are made once more: an entry that both sides have added is then there
twice. Only lists without a change between them come through unharmed, save for some with repeated
entries. -/

namespace MusicLibrary.Playlist

open Merge

/-- Merging a list with itself keeps it if nothing has changed, or if the changes fit and cancel
out. -/
theorem mergedTrackIds_same (old new : List PersistentId) :
    mergedTrackIds new old new = (new, true) ↔
      old = new ∨ applyPatch (patch old new) new = some new := by
  rw [mergedTrackIds]
  by_cases unchanged : old = new
  · rw [if_pos unchanged]
    exact iff_of_true rfl (.inl unchanged)
  · rw [if_neg unchanged, if_neg (Ne.symm unchanged), threeWay, or_iff_right unchanged]
    cases applyPatch (patch old new) new <;> simp

/-- A merge without a conflict adds everything that is new once more, and takes out everything that
has gone once more. -/
theorem count_mergedTrackIds_same {old new merged : List PersistentId}
    (h : mergedTrackIds new old new = (merged, true)) (id : PersistentId) :
    merged.count id + old.count id = 2 * new.count id := by
  rw [mergedTrackIds] at h
  split at h
  · rename_i unchanged
    cases h
    rw [unchanged]
    omega
  · rename_i changed
    rw [if_neg (Ne.symm changed), threeWay] at h
    split at h
    · rename_i applied
      cases h
      have count := count_applyPatch applied id
      omega
    · cases h

theorem mergedTrackIds_conflict {old new merged : List PersistentId}
    (h : mergedTrackIds new old new = (merged, false)) : merged = new := by
  rw [mergedTrackIds] at h
  split at h
  · cases h
  · rename_i changed
    rw [if_neg (Ne.symm changed), threeWay] at h
    split at h
    · cases h
    · cases h
      rfl

/-- Where no entry is repeated, a list with a change behind it does not come through. -/
theorem eq_of_mergedTrackIds_same {old new : List PersistentId} (distinct : new.Nodup)
    (h : mergedTrackIds new old new = (new, true)) : old = new := by
  rcases (mergedTrackIds_same old new).1 h with unchanged | applied
  · exact unchanged
  · apply (sublist_of_applyPatch_target distinct applied).eq_of_length
    apply List.Perm.length_eq
    apply List.perm_iff_count.2
    intro id
    have count := count_mergedTrackIds_same h id
    omega

/-- What becomes of a stored list that is the list of the file already. -/
theorem update?_same_tracks (stored old new : Playlist) (now : Timestamp)
    (same : stored.trackIds = new.trackIds) :
    match stored.update? old new now with
    | none => hasOtherShape stored new = true
    | some (result, change) =>
      let kept := result.trackIds = new.trackIds ∧ change.conflict = false
      (kept ↔ old.trackIds = new.trackIds ∨
        applyPatch (patch old.trackIds new.trackIds) new.trackIds = some new.trackIds) ∧
      (kept → old.trackIds.Perm new.trackIds) ∧
      (new.trackIds.Nodup → (kept ↔ old.trackIds = new.trackIds)) ∧
      (change.conflict = true → result.trackIds = new.trackIds) ∧
      (change.conflict = false → ∀ id,
        result.trackIds.count id + old.trackIds.count id = 2 * new.trackIds.count id) := by
  cases update : stored.update? old new now with
  | none => exact hasOtherShape_iff.2 (update?_eq_none_iff.1 update)
  | some outcome =>
    obtain ⟨result, change⟩ := outcome
    have whole := mergedTrackIds_of_update? update
    rw [same] at whole
    have kept : (result.trackIds = new.trackIds ∧ change.conflict = false) ↔
        mergedTrackIds new.trackIds old.trackIds new.trackIds = (new.trackIds, true) := by
      rw [whole, Prod.mk.injEq, Bool.not_eq_eq_eq_not, Bool.not_true]
    dsimp only
    rw [kept]
    refine ⟨mergedTrackIds_same _ _, ?_, ?_, ?_, ?_⟩
    · intro merged
      apply List.perm_iff_count.2
      intro id
      have count := count_mergedTrackIds_same merged id
      omega
    · intro distinct
      refine ⟨eq_of_mergedTrackIds_same distinct, fun unchanged => ?_⟩
      exact (mergedTrackIds_same _ _).2 (.inl unchanged)
    · intro conflict
      rw [conflict] at whole
      exact mergedTrackIds_conflict whole
    · intro clear
      rw [clear] at whole
      exact count_mergedTrackIds_same whole

/-- A list of tracks. -/
def mix (trackIds : List PersistentId) : Playlist :=
  { Playlist.empty ⟨32⟩ "Mix" .standard with trackIds }

/-- A track is appended on both sides. It is there twice then. -/
theorem update?_bothAppended :
    (mix [⟨1⟩, ⟨2⟩, ⟨3⟩, ⟨4⟩]).update? (mix [⟨1⟩, ⟨2⟩, ⟨3⟩]) (mix [⟨1⟩, ⟨2⟩, ⟨3⟩, ⟨4⟩]) ⟨5⟩ =
      some ({ mix [⟨1⟩, ⟨2⟩, ⟨3⟩, ⟨4⟩, ⟨4⟩] with dateModified := some ⟨5⟩ },
        { changed := true }) := by
  decide +kernel

/-- The same track is moved on both sides. That is taken for a conflict. -/
theorem update?_bothMoved :
    let moved := mix [⟨1⟩, ⟨2⟩, ⟨3⟩, ⟨7⟩, ⟨4⟩, ⟨5⟩, ⟨6⟩]
    let file := mix [⟨1⟩, ⟨2⟩, ⟨3⟩, ⟨4⟩, ⟨5⟩, ⟨6⟩, ⟨7⟩]
    moved.trackIds.Nodup ∧
      ∃ change, moved.update? file moved ⟨5⟩ = some (moved, change) ∧ change.conflict = true := by
  intro moved file
  have applied : moved.update? file moved ⟨5⟩ = some (moved, { conflict := true }) := by
    decide +kernel
  have distinct : moved.trackIds.Nodup := by decide
  have facts := update?_same_tracks moved file moved ⟨5⟩ rfl
  rw [applied] at facts
  have differs : file.trackIds ≠ moved.trackIds := by decide
  refine ⟨distinct, { conflict := true }, applied, ?_⟩
  by_contra clean
  exact differs ((facts.2.2.1 distinct).1 ⟨rfl, Bool.eq_false_iff.2 clean⟩)

/-- With repeated entries a change can cancel itself out. -/
example :
    let old : List PersistentId := [⟨1⟩, ⟨2⟩, ⟨2⟩, ⟨2⟩, ⟨1⟩, ⟨2⟩, ⟨2⟩, ⟨2⟩]
    let new : List PersistentId := [⟨2⟩, ⟨2⟩, ⟨2⟩, ⟨1⟩, ⟨2⟩, ⟨2⟩, ⟨2⟩, ⟨1⟩]
    mergedTrackIds new old new = (new, true) := by
  decide +kernel

end MusicLibrary.Playlist
