import MusicLibrary.Proofs.SortKey.Again
import MusicLibrary.Proofs.Track.SortKeys

/-! Tracks whose sort keys are made a second time. What the first pass has made of a text is then taken
for the text to sort by, and where it has made nothing, the text that is shown is taken instead. -/

namespace MusicLibrary.Track

open SortKey (ofText ofArtist separators Unsettled)

variable {make : String → String} {explicit shown : Option String} {key : String}

/-- A sort column that the second pass leaves as it is: its key is settled, or it has none and what is
shown makes none either. -/
def Stays (make : String → String) (shown : Option String) : Option String → Prop
  | some key => ¬ Unsettled key.toList
  | none => ∀ s, shown = some s → make s = ""

theorem sortKey_eq_some (h : sortKey make explicit shown = some key) :
    key ≠ "" ∧ ∃ s, make s = key := by
  obtain ⟨made, nonempty⟩ := Option.filter_eq_some_iff.1 h
  obtain ⟨s, -, rfl⟩ := Option.map_eq_some_iff.1 made
  exact ⟨by simpa using nonempty, s, rfl⟩

theorem sortKey_again_iff (settles : ∀ key, sortKey make explicit shown = some key →
      (make key = key ↔ ¬ Unsettled key.toList)) :
    sortKey make (sortKey make explicit shown) shown = sortKey make explicit shown ↔
      Stays make shown (sortKey make explicit shown) := by
  cases h : sortKey make explicit shown with
  | none => exact sortKey_eq_none_iff
  | some key =>
    have nonempty := (sortKey_eq_some h).1
    rw [Stays, ← settles key h]
    constructor
    · intro again
      obtain ⟨made, -⟩ := Option.filter_eq_some_iff.1 again
      exact Option.some.inj made
    · intro same
      simp [sortKey, same, nonempty]

theorem sortKey_ofText_again_iff (explicit shown : Option String) :
    sortKey ofText (sortKey ofText explicit shown) shown = sortKey ofText explicit shown ↔
      Stays ofText shown (sortKey ofText explicit shown) := by
  refine sortKey_again_iff fun key made => ?_
  obtain ⟨-, s, rfl⟩ := sortKey_eq_some made
  exact SortKey.ofText_eq_self_iff (SortKey.isKey_ofText s)

theorem sortKey_ofArtist_again_iff (unfeatured : ∀ key, sortKey ofArtist explicit shown = some key →
      ∀ separator ∈ separators, ¬ separator <:+: key.toList) :
    sortKey ofArtist (sortKey ofArtist explicit shown) shown = sortKey ofArtist explicit shown ↔
      Stays ofArtist shown (sortKey ofArtist explicit shown) := by
  refine sortKey_again_iff fun key made => ?_
  have absent := unfeatured key made
  obtain ⟨-, s, rfl⟩ := sortKey_eq_some made
  exact SortKey.ofArtist_eq_self_iff (SortKey.isKey_ofArtist s) absent

/-- Each column of the second pass is made of that of the first. -/
theorem normalizeSortKeys_eq_self_iff (track : Track) : track.normalizeSortKeys = track ↔
    sortKey ofText track.sortAlbum track.album = track.sortAlbum ∧
    sortKey ofArtist track.sortAlbumArtist track.albumArtist = track.sortAlbumArtist ∧
    sortKey ofArtist track.sortArtist track.artist = track.sortArtist ∧
    sortKey ofText track.sortComposer track.composer = track.sortComposer ∧
    sortKey ofText none track.genre = track.sortGenre ∧
    sortKey ofText track.sortName track.name = track.sortName := by
  constructor
  · intro same
    exact ⟨congrArg sortAlbum same, congrArg sortAlbumArtist same, congrArg sortArtist same,
      congrArg sortComposer same, congrArg sortGenre same, congrArg sortName same⟩
  · rintro ⟨album, albumArtist, artist, composer, genre, name⟩
    rw [normalizeSortKeys, album, albumArtist, artist, composer, genre, name]

/-- A key that is made of a key is the same one exactly if nothing at its start is dropped or marked, as
long as no separator is left in it; and the sort columns of a track stay as they are in a second pass
exactly if each does. The key of a genre is always made of the genre. -/
theorem normalized_again_iff :
    (∀ s, ofText (ofText s) = ofText s ↔ ¬ Unsettled (ofText s).toList) ∧
    (∀ s, (∀ separator ∈ separators, ¬ separator <:+: (ofArtist s).toList) →
      (ofArtist (ofArtist s) = ofArtist s ↔ ¬ Unsettled (ofArtist s).toList)) ∧
    ∀ track : Track, let once := track.normalizeSortKeys
      (∀ key, once.sortAlbumArtist = some key ∨ once.sortArtist = some key →
        ∀ separator ∈ separators, ¬ separator <:+: key.toList) →
      (once.normalizeSortKeys = once ↔
        Stays ofText once.album once.sortAlbum ∧
        Stays ofArtist once.albumArtist once.sortAlbumArtist ∧
        Stays ofArtist once.artist once.sortArtist ∧
        Stays ofText once.composer once.sortComposer ∧
        Stays ofText once.name once.sortName) := by
  refine ⟨fun s => SortKey.ofText_eq_self_iff (SortKey.isKey_ofText s),
    fun s => SortKey.ofArtist_eq_self_iff (SortKey.isKey_ofArtist s), fun track => ?_⟩
  intro once unfeatured
  have genre : sortKey ofText none once.genre = once.sortGenre := rfl
  rw [normalizeSortKeys_eq_self_iff, and_iff_right genre]
  exact and_congr (sortKey_ofText_again_iff track.sortAlbum track.album)
    (and_congr (sortKey_ofArtist_again_iff fun key made => unfeatured key (.inl made))
      (and_congr (sortKey_ofArtist_again_iff fun key made => unfeatured key (.inr made))
        (and_congr (sortKey_ofText_again_iff track.sortComposer track.composer)
          (sortKey_ofText_again_iff track.sortName track.name))))

/-- A guest of the band and an article are dropped in the first pass; the second one changes nothing. -/
theorem normalized_again_iff_santana :
    let track : Track := { id := ⟨1⟩, name := some "The Calling", artist := some "Santana feat. Dave" }
    let once := track.normalizeSortKeys
    once.sortArtist = some "santana" ∧
      (∀ key, once.sortAlbumArtist = some key ∨ once.sortArtist = some key →
        ∀ separator ∈ separators, ¬ separator <:+: key.toList) ∧
      Stays ofArtist once.artist once.sortArtist ∧ Stays ofText once.name once.sortName := by
  intro track once
  have same : once.normalizeSortKeys = once := by decide +kernel
  have unfeatured : ∀ key, once.sortAlbumArtist = some key ∨ once.sortArtist = some key →
      ∀ separator ∈ separators, ¬ separator <:+: key.toList := by
    have none : once.sortAlbumArtist = none := by decide +kernel
    have some : once.sortArtist = some "santana" := by decide +kernel
    rw [none, some]
    rintro key (h | h)
    · cases h
    · cases h
      decide +kernel
  obtain ⟨-, -, artist, -, name⟩ := (normalized_again_iff.2.2 track unfeatured).1 same
  exact ⟨by decide +kernel, unfeatured, artist, name⟩

/-- Two articles at the start of a name are dropped one after the other. -/
theorem normalized_again_drops_article :
    let track : Track := { id := ⟨1⟩, name := some "The A Team" }
    let once := track.normalizeSortKeys
    once.sortName = some "a team" ∧ once.normalizeSortKeys.sortName = some "team" ∧
      once.normalizeSortKeys ≠ once ∧ ofText (ofText "The A Team") ≠ ofText "The A Team" := by
  decide +kernel

end MusicLibrary.Track
