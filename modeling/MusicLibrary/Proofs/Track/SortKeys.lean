import MusicLibrary.Proofs.Track.Update
import MusicLibrary.Track.Import

/-! The keys that a track is sorted by, when the file changes. A key is merged like any other text, so
one that is no longer there is taken for one that the file leaves out. A new text that makes no key,
such as one without letters or digits of the Latin alphabet, is therefore sorted as the text was that
it replaces. In every other case the key follows its text. -/

namespace MusicLibrary

/-- What a value that nobody has edited becomes. -/
theorem MergePolicy.merge?_overwriteIfPresent_unedited {type : FieldType}
    {old new result : Option type.Value}
    (merged : overwriteIfPresent.merge? type old old new = some result) : result = new.or old := by
  rw [← Option.some.inj merged]
  split
  · rename_i same
    rw [same, Option.or_self]
  · cases new <;> rfl

namespace Track

/-- The columns whose text has a key, with the columns that hold the keys. -/
inductive Column.SortedBy : Column → Column → Prop
  | album : SortedBy .album .sortAlbum
  | albumArtist : SortedBy .albumArtist .sortAlbumArtist
  | artist : SortedBy .artist .sortArtist
  | composer : SortedBy .composer .sortComposer
  | genre : SortedBy .genre .sortGenre
  | name : SortedBy .name .sortName

/-- How the key of a text is made; of artists it leaves out those who are featured. -/
def keyOf : Column → String → String
  | .albumArtist | .artist => SortKey.ofArtist
  | _ => SortKey.ofText

/-- The text of a record whose key is taken: the one to sort by, if there is one, or the one that is
shown. -/
def sortText? (record : TrackRecord) : Column → Option String
  | .album => record.sortAlbum <|> record.album
  | .albumArtist => record.sortAlbumArtist <|> record.albumArtist
  | .artist => record.sortArtist <|> record.artist
  | .composer => record.sortComposer <|> record.composer
  | .genre => record.genre
  | .name => record.sortName <|> record.name
  | _ => none

variable {id : PersistentId} {record old new : TrackRecord} {shown key : Column} {now : Timestamp}

theorem sortKey_eq_none_iff {make : String → String} {explicit text : Option String} :
    sortKey make explicit text = none ↔ ∀ s, (explicit <|> text) = some s → make s = "" := by
  rw [sortKey]
  cases (explicit <|> text) with
  | none => exact iff_of_true rfl nofun
  | some s => simp

/-- A track has no key exactly if its text makes an empty one. -/
theorem get_key_eq_none_iff (pair : shown.SortedBy key) :
    (ofRecord id record).get key = none ↔
      ∀ s, sortText? record shown = some s → keyOf shown s = "" := by
  cases pair
  all_goals
    exact sortKey_eq_none_iff

/-- What is shown can be sorted by. -/
theorem exists_sortText (pair : shown.SortedBy key)
    (set : ((ofRecord id record).get shown).isSome = true) :
    ∃ s, sortText? record shown = some s := by
  have either (explicit text : Option String) (set : text.isSome = true) :
      ∃ s, (explicit <|> text) = some s := by
    cases explicit with
    | none => exact Option.isSome_iff_exists.1 set
    | some s => exact ⟨s, rfl⟩
  cases pair with
  | genre => exact Option.isSome_iff_exists.1 set
  | album | albumArtist | artist | composer | name => exact either _ _ set

/-- Of an unedited track, a text and its key each become what the file has, if it has something. -/
theorem get_update_unedited (pair : shown.SortedBy key) {stored new result : Track}
    {changed : List Column} (update : stored.update? stored new now = some (result, changed)) :
    result.get shown = (new.get shown).or (stored.get shown) ∧
      result.get key = (new.get key).or (stored.get key) := by
  cases pair
  all_goals
    exact ⟨MergePolicy.merge?_overwriteIfPresent_unedited (merge?_of_update? update rfl nofun),
      MergePolicy.merge?_overwriteIfPresent_unedited (merge?_of_update? update rfl nofun)⟩

/-- When a text of an unedited track changes, its key becomes that of the new text exactly if the new
text makes a key, or the old one made none. With no key to replace it, the old one stays. -/
theorem sortKey_follows_iff (pair : shown.SortedBy key)
    (fits : (ofRecord id old).CountersCanFollow (ofRecord id old) (ofRecord id new))
    (now : Timestamp) : ∃ result changed,
      (ofRecord id old).update? (ofRecord id old) (ofRecord id new) now = some (result, changed) ∧
      (result.get shown ≠ (ofRecord id old).get shown → ∃ s, sortText? new shown = some s ∧
        (result.get key = (ofRecord id new).get key ↔
          keyOf shown s ≠ "" ∨ (ofRecord id old).get key = none) ∧
        (keyOf shown s = "" → (ofRecord id new).get key = none ∧
          result.get key = (ofRecord id old).get key)) := by
  obtain ⟨⟨result, changed⟩, update⟩ := Option.isSome_iff_exists.1 (isSome_update?_iff.2 fits)
  refine ⟨result, changed, update, fun changes => ?_⟩
  have ⟨text, merged⟩ := get_update_unedited pair update
  have set : ((ofRecord id new).get shown).isSome = true := by
    rw [Option.isSome_iff_ne_none]
    intro unset
    rw [text, unset, Option.none_or] at changes
    exact changes rfl
  obtain ⟨s, source⟩ := exists_sortText pair set
  have keyless : (ofRecord id new).get key = none ↔ keyOf shown s = "" := by
    rw [get_key_eq_none_iff pair, source]
    simp
  refine ⟨s, source, ?_, ?_⟩
  · rw [merged, Ne, ← keyless]
    cases (ofRecord id new).get key with
    | none => rw [Option.none_or, or_iff_right (not_not.2 rfl)]
    | some k => exact iff_of_true rfl (.inl nofun)
  · intro empty
    rw [merged, keyless.2 empty, Option.none_or]
    exact ⟨rfl, rfl⟩

/-- A new artist, shown with a guest, is sorted by the sort text that the file has for the artist. -/
theorem sortKey_follows_artist :
    let old : TrackRecord := { artist := some "Santana", sortArtist := some "Santana, Carlos" }
    let new : TrackRecord := { artist := some "The Who with Guests", sortArtist := some "Who, The" }
    Column.artist.SortedBy .sortArtist ∧
      (ofRecord ⟨1⟩ old).CountersCanFollow (ofRecord ⟨1⟩ old) (ofRecord ⟨1⟩ new) ∧
      ∃ result changed, (ofRecord ⟨1⟩ old).update? (ofRecord ⟨1⟩ old) (ofRecord ⟨1⟩ new) ⟨5⟩ =
          some (result, changed) ∧
        result.get .artist ≠ (ofRecord ⟨1⟩ old).get .artist ∧
        result.get .sortArtist = (ofRecord ⟨1⟩ new).get .sortArtist := by
  intro old new
  have fits : (ofRecord ⟨1⟩ old).CountersCanFollow (ofRecord ⟨1⟩ old) (ofRecord ⟨1⟩ new) := by
    intro column counter
    cases column with
    | playCount | skipCount => exact ⟨by decide +kernel, by decide +kernel⟩
    | _ => cases counter
  obtain ⟨result, changed, update, keys⟩ := sortKey_follows_iff .artist fits ⟨5⟩
  have changes : result.get .artist ≠ (ofRecord ⟨1⟩ old).get .artist := by
    rw [(get_update_unedited .artist update).1]
    decide +kernel
  obtain ⟨s, source, follows, -⟩ := keys changes
  have text : s = "Who, The" := (Option.some.inj source).symm
  refine ⟨.artist, fits, result, changed, update, changes, follows.2 (.inl ?_)⟩
  rw [text]
  decide +kernel

/-- A name without letters and digits is sorted as the name that it replaces. -/
theorem sortName_stays_behind :
    let old : TrackRecord := { name := some "Song" }
    let new : TrackRecord := { name := some "!!!" }
    ∃ result changed, (ofRecord ⟨1⟩ old).update? (ofRecord ⟨1⟩ old) (ofRecord ⟨1⟩ new) ⟨5⟩ =
        some (result, changed) ∧
      result.name = some "!!!" ∧ result.name ≠ (ofRecord ⟨1⟩ old).name ∧
        result.sortName = some "song" ∧ result.sortName ≠ (ofRecord ⟨1⟩ new).sortName := by
  intro old new
  have update : (ofRecord ⟨1⟩ old).update? (ofRecord ⟨1⟩ old) (ofRecord ⟨1⟩ new) ⟨5⟩ =
      some ({ ofRecord ⟨1⟩ old with name := some "!!!", dateModified := some ⟨5⟩ }, [.name]) := by
    decide +kernel
  exact ⟨_, _, update, rfl, by decide +kernel, by decide +kernel, by decide +kernel⟩

end Track

end MusicLibrary
