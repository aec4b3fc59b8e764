import MusicLibrary.Playlist.Update
import MusicLibrary.Proofs.Track.MergePolicy

/-! The rule by which a change in the file is merged into a playlist. It is told field by field,
without a look at how the merge goes about it, and it leaves no choice: what becomes of the playlist
follows from it, and so does every word on what has changed. -/

namespace MusicLibrary

namespace Playlist

/-- A value that follows the file: what the file has changed is adopted, whatever was stored. -/
structure Follows (stored old new result : α) : Prop where
  kept : old = new → result = stored
  adopted : old ≠ new → result = new

/-- A track list that follows the file. One that has changed on both sides is merged, and there is a
conflict exactly if that fails. -/
structure ListFollows (stored old new result : List PersistentId) (conflict : Bool) : Prop where
  kept : old = new → result = stored ∧ conflict = false
  adopted : old ≠ new → stored = old → result = new ∧ conflict = false
  merged : old ≠ new → stored ≠ old → Merge.threeWay old stored new = (result, !conflict)

/-- The rule. The date of modification is no change in itself. -/
structure IsMerge (stored old new : Playlist) (now : Timestamp) (result : Playlist)
    (change : Change) : Prop where
  id : result.id = stored.id
  kind : result.kind = stored.kind
  folder : result.folder = stored.folder
  geniusTrackId : result.geniusTrackId = stored.geniusTrackId
  parentId : Follows stored.parentId old.parentId new.parentId result.parentId
  name : Follows stored.name old.name new.name result.name
  smart : Follows stored.smart old.smart new.smart result.smart
  dateAdded : MergePolicy.IsFirst FieldType.time.before [stored.dateAdded, new.dateAdded]
    result.dateAdded
  trackIds : ListFollows stored.trackIds old.trackIds new.trackIds result.trackIds change.conflict
  changed : change.changed = true ↔ { result with dateModified := stored.dateModified } ≠ stored
  parentChanged : change.parentChanged = true ↔ result.parentId ≠ stored.parentId
  dateModified : result.dateModified = if change.changed then some now else stored.dateModified

/-! The fields. -/

/-- An assignment puts in another value than the one that is there, so it tells whether there is a
change. -/
theorem isSome_iff_getD_ne {stored : α} {assigned : Option α} (other : assigned ≠ some stored) :
    assigned.isSome = true ↔ assigned.getD stored ≠ stored := by
  cases assigned with
  | none => exact iff_of_false nofun fun differs => differs rfl
  | some value => exact iff_of_true rfl fun same => other (congrArg some same)

theorem adopted?_ne [DecidableEq α] (stored old new : α) :
    adopted? stored old new ≠ some stored := by
  intro assigned
  obtain ⟨⟨_, differs⟩, same⟩ := Option.ite_none_right_eq_some.1 assigned
  exact differs (Option.some.inj same).symm

theorem earlier?_ne (stored new : Option Timestamp) : earlier? stored new ≠ some stored := by
  intro assigned
  obtain ⟨n, rfl, assigned⟩ := Option.bind_eq_some_iff.1 assigned
  obtain ⟨before, same⟩ := Option.ite_none_right_eq_some.1 assigned
  cases same
  exact Int64.lt_irrefl (of_decide_eq_true before)

theorem trackIds?_ne (stored merged : List PersistentId) :
    trackIds? stored merged ≠ some stored := by
  intro assigned
  obtain ⟨differs, same⟩ := Option.ite_none_right_eq_some.1 assigned
  exact differs (Option.some.inj same)

theorem getD_trackIds? (stored merged : List PersistentId) :
    (trackIds? stored merged).getD stored = merged := by
  rw [trackIds?]
  split
  · rfl
  · rename_i same
    exact (not_not.1 same).symm

theorem follows_adopted? [DecidableEq α] (stored old new : α) :
    Follows stored old new ((adopted? stored old new).getD stored) := by
  rw [adopted?]
  split
  · rename_i differs
    exact ⟨fun same => absurd same differs.1, fun _ => rfl⟩
  · rename_i stays
    rw [not_and, not_not] at stays
    exact ⟨fun _ => rfl, stays⟩

theorem Follows.unique {stored old new a b : α} (ha : Follows stored old new a)
    (hb : Follows stored old new b) : a = b := by
  by_cases same : old = new
  · rw [ha.kept same, hb.kept same]
  · rw [ha.adopted same, hb.adopted same]

theorem listFollows_mergedTrackIds (stored old new : List PersistentId) :
    ListFollows stored old new (mergedTrackIds stored old new).1
      (!(mergedTrackIds stored old new).2) := by
  rw [mergedTrackIds]
  by_cases same : old = new
  · rw [if_pos same]
    exact ⟨fun _ => ⟨rfl, rfl⟩, absurd same, absurd same⟩
  rw [if_neg same]
  by_cases unedited : stored = old
  · rw [if_pos unedited]
    exact ⟨fun h => absurd h same, fun _ _ => ⟨rfl, rfl⟩, fun _ => absurd unedited⟩
  · rw [if_neg unedited]
    exact ⟨fun h => absurd h same, fun _ h => absurd h unedited, fun _ _ => by rw [Bool.not_not]⟩

theorem ListFollows.unique {stored old new a b : List PersistentId} {c d : Bool}
    (ha : ListFollows stored old new a c) (hb : ListFollows stored old new b d) :
    a = b ∧ c = d := by
  by_cases same : old = new
  · obtain ⟨rfl, rfl⟩ := ha.kept same
    obtain ⟨rfl, rfl⟩ := hb.kept same
    exact ⟨rfl, rfl⟩
  by_cases unedited : stored = old
  · obtain ⟨rfl, rfl⟩ := ha.adopted same unedited
    obtain ⟨rfl, rfl⟩ := hb.adopted same unedited
    exact ⟨rfl, rfl⟩
  · have both := (ha.merged same unedited).symm.trans (hb.merged same unedited)
    rw [Prod.mk.injEq, Bool.not_inj_iff] at both
    exact both

theorem getD_earlier? (stored new : Option Timestamp) :
    (earlier? stored new).getD stored = MergePolicy.better FieldType.time.before stored new := by
  cases new with
  | none => cases stored <;> rfl
  | some n =>
    cases stored with
    | none => rfl
    | some s =>
      by_cases less : n.ms < s.ms <;> simp [earlier?, MergePolicy.better, FieldType.before, less]

theorem isFirst_earlier? (stored new : Option Timestamp) :
    MergePolicy.IsFirst FieldType.time.before [stored, new]
      ((earlier? stored new).getD stored) := by
  rw [getD_earlier?]
  exact MergePolicy.isFirst_better FieldType.time.before FieldType.time.before_irrefl
    (fun _ _ _ => FieldType.before_trans) stored new

/-- Two times of which neither comes before the other are the same. -/
theorem eq_of_not_before (a b : Timestamp) (ab : FieldType.time.before a b = false)
    (ba : FieldType.time.before b a = false) : a = b := by
  have ms : a.ms = b.ms :=
    Int64.le_antisymm (FieldType.ms_le_of_not_before ba) (FieldType.ms_le_of_not_before ab)
  cases a
  cases b
  exact congrArg Timestamp.mk ms

/-! The whole playlist. -/

variable {stored old new result other : Playlist} {now : Timestamp} {change account : Change}

theorem hasOtherShape_iff :
    hasOtherShape stored new = true ↔
      stored.folder ≠ new.folder ∨ stored.isSmart ≠ new.isSmart := by
  rw [hasOtherShape, Bool.or_eq_true, bne_iff_ne, bne_iff_ne]

section

variable (h : stored.update? old new now = some (result, change))
include h

/-- A merge leaves these fields alone. -/
theorem kept_of_update? : result.id = stored.id ∧ result.kind = stored.kind ∧
    result.folder = stored.folder ∧ result.geniusTrackId = stored.geniusTrackId := by
  rw [update?] at h
  split at h
  · cases h
  · cases h
    exact ⟨rfl, rfl, rfl, rfl⟩

/-- A change is told exactly if one of the other fields has another value than before, since none is
assigned the value that it has. -/
theorem changed_of_update? : change.changed = true ↔
    ¬ (result.smart = stored.smart ∧ result.name = stored.name ∧
      result.dateAdded = stored.dateAdded ∧ result.trackIds = stored.trackIds ∧
      result.parentId = stored.parentId) := by
  rw [update?] at h
  split at h
  · cases h
  cases h
  simp only [Bool.or_eq_true, isSome_iff_getD_ne (adopted?_ne _ _ _),
    isSome_iff_getD_ne (earlier?_ne _ _), isSome_iff_getD_ne (trackIds?_ne _ _), not_and_or,
    or_assoc]

theorem changed_iff_ne_of_update? :
    change.changed = true ↔ { result with dateModified := stored.dateModified } ≠ stored := by
  obtain ⟨id, kind, folder, geniusTrackId⟩ := kept_of_update? h
  rw [changed_of_update? h, not_iff_not]
  constructor
  · rintro ⟨smart, name, dateAdded, trackIds, parentId⟩
    rw [id, kind, folder, geniusTrackId, smart, name, dateAdded, trackIds, parentId]
  · intro same
    rw [← same]
    exact ⟨rfl, rfl, rfl, rfl, rfl⟩

theorem mergedTrackIds_of_update? : mergedTrackIds stored.trackIds old.trackIds new.trackIds =
    (result.trackIds, !change.conflict) := by
  rw [update?] at h
  split at h
  · cases h
  · cases h
    rw [getD_trackIds?, Bool.not_not]

/-- What a merge makes of a playlist goes by the rule. -/
theorem isMerge_of_update? : IsMerge stored old new now result change := by
  have changed := changed_iff_ne_of_update? h
  have lists := listFollows_mergedTrackIds stored.trackIds old.trackIds new.trackIds
  rw [mergedTrackIds_of_update? h, Bool.not_not] at lists
  rw [update?] at h
  split at h
  · cases h
  cases h
  exact {
    id := rfl
    kind := rfl
    folder := rfl
    geniusTrackId := rfl
    parentId := follows_adopted? _ _ _
    name := follows_adopted? _ _ _
    smart := follows_adopted? _ _ _
    dateAdded := isFirst_earlier? _ _
    trackIds := lists
    changed
    parentChanged := isSome_iff_getD_ne (adopted?_ne _ _ _)
    dateModified := rfl }

end

/-- The rule leaves no choice. -/
theorem IsMerge.unique (h : IsMerge stored old new now result change)
    (h' : IsMerge stored old new now other account) : result = other ∧ change = account := by
  obtain ⟨tracks, conflict⟩ := h.trackIds.unique h'.trackIds
  have parent := h.parentId.unique h'.parentId
  have same : { result with dateModified := stored.dateModified } =
      { other with dateModified := stored.dateModified } := by
    rw [Playlist.mk.injEq]
    exact ⟨h.id.trans h'.id.symm, parent, h.kind.trans h'.kind.symm, h.folder.trans h'.folder.symm,
      h.name.unique h'.name, h.dateAdded.unique eq_of_not_before h'.dateAdded, rfl,
      h.smart.unique h'.smart, h.geniusTrackId.trans h'.geniusTrackId.symm, tracks⟩
  have changed : change.changed = account.changed := by
    rw [Bool.eq_iff_iff, h.changed, h'.changed, same]
  have parentChanged : change.parentChanged = account.parentChanged := by
    rw [Bool.eq_iff_iff, h.parentChanged, h'.parentChanged, parent]
  have modified : result.dateModified = other.dateModified := by
    rw [h.dateModified, h'.dateModified, changed]
  constructor
  · calc
      result = { ({ result with dateModified := stored.dateModified } : Playlist) with
          dateModified := result.dateModified } := rfl
      _ = { other with dateModified := other.dateModified } := by rw [same, modified]
      _ = other := rfl
  · cases change
    cases account
    rw [Change.mk.injEq]
    exact ⟨changed, parentChanged, conflict⟩

theorem update?_eq_none_iff : stored.update? old new now = none ↔
    stored.folder ≠ new.folder ∨ stored.isSmart ≠ new.isSmart := by
  rw [← hasOtherShape_iff, update?]
  split
  · rename_i otherShape
    exact iff_of_true rfl otherShape
  · rename_i sameShape
    exact iff_of_false nofun sameShape

/-- A change of the file is refused exactly if it is one of shape. Every other one is merged by the
rule, and the rule alone tells what comes of it. -/
theorem update?_merges_by_rule (stored old new : Playlist) (now : Timestamp) :
    (stored.update? old new now = none ↔
        stored.folder ≠ new.folder ∨ stored.isSmart ≠ new.isSmart) ∧
      ∀ result change, stored.update? old new now = some (result, change) ↔
        (stored.folder = new.folder ∧ stored.isSmart = new.isSmart) ∧
          IsMerge stored old new now result change := by
  refine ⟨update?_eq_none_iff, fun result change => ⟨fun merged => ?_, ?_⟩⟩
  · refine ⟨?_, isMerge_of_update? merged⟩
    by_contra otherShape
    rw [update?_eq_none_iff.2 (not_and_or.1 otherShape)] at merged
    cases merged
  · rintro ⟨⟨folder, smart⟩, rule⟩
    cases merged : stored.update? old new now with
    | none =>
      rcases update?_eq_none_iff.1 merged with differs | differs
      · exact absurd folder differs
      · exact absurd smart differs
    | some outcome =>
      obtain ⟨rfl, rfl⟩ := (isMerge_of_update? merged).unique rule
      rfl

/-- A name that both sides have given to a playlist is no change of it. -/
example :
    let old := Playlist.empty ⟨1⟩ "Live" .standard
    let new := { old with name := "Live at Wembley" }
    new.update? old new ⟨5⟩ = some (new, {}) := by
  decide +kernel

end Playlist

end MusicLibrary
