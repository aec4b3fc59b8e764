import MusicLibrary.Proofs.Playlist.MergeRule
import MusicLibrary.Proofs.Record.Playlist
import MusicLibrary.Proofs.Smart.FirstStoring
import MusicLibrary.Proofs.Store.PlaylistChange
import MusicLibrary.Proofs.Sync.Baseline
import MusicLibrary.Proofs.Sync.Steps

/-! Smart playlists that are read and written again. A synchronisation that changes another field
writes the rules that it has read, so that they are stored once more. Main statement: when the rules
stay as they are, and that it does not take them more than three storings. -/

namespace MusicLibrary

namespace Store

variable {store next : Store}

/-- A smart playlist that is written is read with the rules that are stored. -/
theorem smart_of_writePlaylist {playlist : Playlist} {id : PersistentId} {smart back : Smart}
    (write : store.writePlaylist playlist = .ok next) (key : playlist.id.key = id.key)
    (rules : playlist.smart = some smart) (read : Smart.ofBytes smart.toBytes = .ok back) :
    ∃ after, next.playlist? id = .ok (some after) ∧ after.smart = some back := by
  have found := find?_of_writePlaylist write key
  have stored : (PlaylistRow.ofPlaylist playlist).rules.read? = some (some back) := by
    rw [PlaylistRow.ofPlaylist, rules, StoredRules.ofSmart, StoredRules.read?, read]
    rfl
  have row : ∃ after, (PlaylistRow.ofPlaylist playlist).playlist? (next.trackIds id) = some after ∧
      after.smart = some back := by
    rw [PlaylistRow.playlist?, stored]
    exact ⟨_, rfl, rfl⟩
  obtain ⟨after, read, smart⟩ := row
  exact ⟨after, playlist?_eq_some.2 ⟨_, found, read⟩, smart⟩

end Store

/-- A merge keeps rules that are the same in both states of the file. -/
theorem Playlist.smart_of_update? {stored old new result : Playlist} {now : Timestamp}
    {change : Change} (same : old.smart = new.smart)
    (h : stored.update? old new now = some (result, change)) : result.smart = stored.smart :=
  (isMerge_of_update? h).smart.kept same

theorem Playlist.smartOf_unnumbered (record : PlaylistRecord) :
    smartOf record.unnumbered = smartOf record := rfl

namespace Sync

/-- A change in the file that can be written is written. -/
theorem syncPlaylist_of_update (options : Options) {store written : Store}
    {record old : PlaylistRecord} {id oldId : PersistentId} {previous : String}
    {stored playlist : Playlist} {change : Playlist.Change}
    (name : record.persistentId = some id)
    (wanted : (options.skipsSystemPlaylists && record.isSystem) = false)
    (seen : store.snapshot? .playlist options.owner id.hex = some previous)
    (differs : ¬ previous = record.toJson.compact)
    (row : store.playlist? id = .ok (some stored))
    (base : recordOf PlaylistRecord.ofJson? (·.persistentId) previous = .ok (oldId, old))
    (update : stored.update? (.ofRecord oldId old) (.ofRecord id record) options.now =
      some (playlist, change))
    (something : change.changed = true) (write : store.writePlaylist playlist = .ok written) :
    syncPlaylist options store record =
      .ok (recordPlaylistChange options
        (written.putSnapshot .playlist options.owner id.hex record.toJson.compact) id
        stored.parentId playlist.parentId change.parentChanged,
        .updated change.parentChanged change.conflict) := by
  have merge : mergePlaylist options store id record previous stored = .ok
      (recordPlaylistChange options
        (written.putSnapshot .playlist options.owner id.hex record.toJson.compact) id
        stored.parentId playlist.parentId change.parentChanged,
        .updated change.parentChanged change.conflict) := by
    rw [mergePlaylist, base]
    simp only [bind, Except.bind, update, something, write]
    rfl
  simp only [syncPlaylist, name, wanted, seen, if_neg differs, row]
  exact merge

/-- In a library file something of a smart playlist has changed, and its rules have not. -/
structure ChangesOther (options : Options) (store : Store) (id : PersistentId) (smart : Smart)
    (record : PlaylistRecord) : Prop where
  name : record.persistentId = some id
  row : ∃ stored, store.playlist? id = .ok (some stored) ∧ stored.smart = some smart
  base : ∃ previous oldId old, store.snapshot? .playlist options.owner id.hex = some previous ∧
    recordOf PlaylistRecord.ofJson? (·.persistentId) previous = .ok (oldId, old) ∧
    Playlist.smartOf old = Playlist.smartOf record

variable {options : Options} {store next : Store} {record : PlaylistRecord} {id : PersistentId}
  {outcome : Outcome} {smart : Smart}

/-- Rules that the store gives back as they are stay as they are. -/
theorem ChangesOther.kept (h : ChangesOther options store id smart record)
    (settled : Smart.ofBytes smart.toBytes = .ok smart)
    (sync : syncPlaylist options store record = .ok (next, outcome)) :
    ∃ after, next.playlist? id = .ok (some after) ∧ after.smart = some smart := by
  obtain ⟨stored, row, rules⟩ := h.row
  obtain ⟨previous, oldId, old, seen, base, same⟩ := h.base
  cases playlistStep_of_syncPlaylist sync with
  | nameless | system | known | gone | otherShape | settled => exact ⟨stored, row, rules⟩
  | created name fresh write =>
    cases h.name.symm.trans name
    cases seen.symm.trans fresh
  | @merged _ _ _ _ _ playlist _ written name differs row' base' update something write =>
    cases h.name.symm.trans name
    cases row.symm.trans row'
    cases seen.symm.trans differs.seen
    cases base.symm.trans base'
    have key : playlist.id.key = id.key := by
      obtain ⟨own, found, same, -⟩ := Store.of_playlist? row
      rw [(Store.of_update? update).1, same]
      exact Table.key_of_find? found
    have kept : playlist.smart = some smart := by
      rw [Playlist.smart_of_update? same update, rules]
    obtain ⟨audit, recorded⟩ := recordPlaylistChange_eq ..
    rw [recorded]
    have back := Store.smart_of_writePlaylist write key kept settled
    exact back

end Sync

namespace Smart

variable {smart : Smart}

/-- The texts of a library file are read as the store reads what it holds. -/
theorem decodeTexts_encodeTexts (fits : (encodeCriteria smart.ruleset).length < 4294967296) :
    decodeTexts (encodeTexts smart).1 (encodeTexts smart).2 = ofBytes smart.toBytes := by
  have spaced (bytes : List UInt8) :
      decodeBase64 (.ofList (Text.Base64.encode bytes)) = .ok bytes :=
    decodeBase64_spaced (by rw [String.toList_ofList]; exact .refl _)
  rw [decodeTexts, encodeTexts, spaced, spaced, ofBytes_toBytes, fit32_eq fits, List.take_length]
  rfl

/-- What the store gives back stays as it is, once it is stored again, exactly if its length fits
and its rules settle at once: no unknown rule, no offset with a part of a second, no other dates
that end in the start of 1904. If the leaves of what was stored have the kinds of values that their
attributes have, that is so exactly if none of its dates were written with two zeros at their end.
As far as the lengths fit, what the store gives back stays as it is after two more storings in any
case; and what stays as it is, is kept by a synchronisation that changes something else. -/
theorem storing_again (fits : (encodeCriteria smart.ruleset).length < 4294967296) :
    ∃ once, ofBytes smart.toBytes = .ok once ∧
      (ofBytes once.toBytes = .ok once ↔
        (encodeCriteria once.ruleset).length < 4294967296 ∧ once.ruleset.settlesIn 0 = true) ∧
      (smart.ruleset.isWellKinded = true →
        (ofBytes once.toBytes = .ok once ↔ smart.ruleset.settlesAtOnce = true)) ∧
      ((encodeCriteria once.ruleset).length < 4294967296 →
        ∃ twice thrice, ofBytes once.toBytes = .ok twice ∧ ofBytes twice.toBytes = .ok thrice ∧
          ofBytes thrice.toBytes = .ok thrice) ∧
      (ofBytes once.toBytes = .ok once → ∀ options store id record next outcome,
        Sync.ChangesOther options store id once record →
          Sync.syncPlaylist options store record = .ok (next, outcome) →
            ∃ after, next.playlist? id = .ok (some after) ∧ after.smart = some once) := by
  obtain ⟨once, read⟩ := exists_ofBytes_toBytes smart
  refine ⟨once, read, ofBytes_toBytes_eq_self_iff read, ?_, settles_in_two read, ?_⟩
  · intro kinds
    exact ofBytes_toBytes_once_iff kinds fits read
  · intro settled options store id record next outcome changes sync
    exact changes.kept settled sync

/-- More numbers, texts and parts of a second than a record holds, and a rule that is not
understood. -/
def crowded : Smart where
  ruleset :=
    ⟨.or, [.integer ⟨.year, .pos, .is, [-1, 1990, 1991, 1992]⟩,
      .group .and [.text ⟨.genre, .strNeg, .contains, ["Jazz", "Funk"]⟩,
        .unknown ⟨.cloudStatus, .pos, .is, ()⟩],
      .date ⟨.playDate, .pos, .between, [⟨0⟩, ⟨1999⟩]⟩]⟩

/-- What is left of it. -/
def crowdedOnce : Smart where
  ruleset :=
    ⟨.or, [.integer ⟨.year, .pos, .is, [4294967295, 1990, 1991]⟩,
      .group .and [.text ⟨.genre, .strNeg, .contains, ["Jazz"]⟩],
      .date ⟨.playDate, .pos, .between, [⟨0⟩, ⟨1000⟩]⟩]⟩

/-- Its record in a library file. -/
def crowdedRecord (name : String) : PlaylistRecord where
  persistentId := some ⟨32⟩
  name := some name
  smartInfo := some (encodeTexts crowded).1
  smartCriteria := some (encodeTexts crowded).2

def crowdedList (name : String) (modified : Option Timestamp) : Playlist where
  id := ⟨32⟩
  kind := .smart
  name := name
  dateModified := modified
  smart := some crowdedOnce

/-- The playlist was read from the file when it had its first name. -/
def crowdedStore : Store :=
  ({ playlists := Table.empty.put (.ofPlaylist (crowdedList "Mix" none)) } : Store).putSnapshot
    .playlist none (PersistentId.hex ⟨32⟩) (crowdedRecord "Mix").toJson.compact

theorem ofBytes_crowded : ofBytes crowded.toBytes = .ok crowdedOnce := by decide +kernel

theorem smartOf_crowdedRecord (name : String) :
    Playlist.smartOf (crowdedRecord name) = some crowdedOnce := by
  have infoText : (crowdedRecord name).smartInfo = some (encodeTexts crowded).1 := rfl
  have criteriaText : (crowdedRecord name).smartCriteria = some (encodeTexts crowded).2 := rfl
  have info : Text.isBlankText (encodeTexts crowded).1 = false := by
    rw [encodeTexts, Text.isBlankText, String.toList_ofList]
    decide +kernel
  have criteria : Text.isBlankText (encodeTexts crowded).2 = false := by
    rw [encodeTexts, Text.isBlankText, String.toList_ofList]
    decide +kernel
  have smart : (crowdedRecord name).isSmart = true := by
    rw [PlaylistRecord.isSmart, infoText, criteriaText, Option.any_some, Option.any_some, info,
      criteria]
    rfl
  have fits : (encodeCriteria crowded.ruleset).length < 4294967296 := by decide +kernel
  rw [Playlist.smartOf, if_pos smart, infoText, criteriaText, Option.getD_some, Option.getD_some,
    decodeTexts_encodeTexts fits, ofBytes_crowded]
  rfl

theorem ofRecord_crowdedRecord (name : String) :
    Playlist.ofRecord ⟨32⟩ (crowdedRecord name) = crowdedList name none := by
  simp only [Playlist.ofRecord, Playlist.kindOf, smartOf_crowdedRecord]
  rfl

theorem playlist?_crowdedStore :
    crowdedStore.playlist? ⟨32⟩ = .ok (some (crowdedList "Mix" none)) := by
  decide +kernel

theorem snapshot?_crowdedStore :
    crowdedStore.snapshot? .playlist none (PersistentId.hex ⟨32⟩) =
      some (crowdedRecord "Mix").toJson.compact :=
  Store.snapshot?_putSnapshot_self _ _ _ _ _

theorem changesOther_crowdedRecord (options : Sync.Options) (owner : options.owner = none) :
    Sync.ChangesOther options crowdedStore ⟨32⟩ crowdedOnce (crowdedRecord "Mix 2") := by
  have same : Playlist.smartOf (crowdedRecord "Mix").unnumbered =
      Playlist.smartOf (crowdedRecord "Mix 2") := by
    rw [Playlist.smartOf_unnumbered, smartOf_crowdedRecord, smartOf_crowdedRecord]
  have base := (crowdedRecord "Mix").recordOf_compact rfl
  have seen : crowdedStore.snapshot? .playlist options.owner (PersistentId.hex ⟨32⟩) =
      some (crowdedRecord "Mix").toJson.compact := by
    rw [owner]
    exact snapshot?_crowdedStore
  exact ⟨rfl, ⟨_, playlist?_crowdedStore, rfl⟩, _, _, _, seen, base, same⟩

/-- The new name is taken over from the file. -/
theorem syncPlaylist_crowdedRecord :
    ∃ next, Sync.syncPlaylist { actor := "cron", now := ⟨7⟩ } crowdedStore (crowdedRecord "Mix 2") =
      .ok (next, .updated false false) := by
  have name : (crowdedRecord "Mix 2").persistentId = some ⟨32⟩ := rfl
  have wanted : (true && (crowdedRecord "Mix 2").isSystem) = false := rfl
  have base := (crowdedRecord "Mix").recordOf_compact rfl
  have differs :
      ¬ (crowdedRecord "Mix").toJson.compact = (crowdedRecord "Mix 2").toJson.compact := by
    intro same
    rw [same, (crowdedRecord "Mix 2").recordOf_compact rfl] at base
    have names := congrArg (Except.map fun found => found.2.name) base
    have names : (.ok (some "Mix 2") : Except Failure (Option String)) = .ok (some "Mix") := names
    revert names
    decide
  have update : (crowdedList "Mix" none).update? (.ofRecord ⟨32⟩ (crowdedRecord "Mix").unnumbered)
      (.ofRecord ⟨32⟩ (crowdedRecord "Mix 2")) ⟨7⟩ =
        some (crowdedList "Mix 2" (some ⟨7⟩), ⟨true, false, false⟩) := by
    rw [Playlist.ofRecord_unnumbered, ofRecord_crowdedRecord, ofRecord_crowdedRecord]
    decide +kernel
  have write : ∃ written,
      crowdedStore.writePlaylist (crowdedList "Mix 2" (some ⟨7⟩)) = .ok written := by
    have placed : crowdedStore.checkHierarchy (crowdedList "Mix 2" (some ⟨7⟩)) = .ok () :=
      Store.checkAbove_none _ _ _
    rw [Store.writePlaylist, placed]
    exact ⟨_, rfl⟩
  obtain ⟨written, write⟩ := write
  exact ⟨_, Sync.syncPlaylist_of_update { actor := "cron", now := ⟨7⟩ } name wanted
    snapshot?_crowdedStore differs playlist?_crowdedStore base update rfl write⟩

theorem storing_again_crowded :
    (encodeCriteria crowded.ruleset).length < 4294967296 ∧
      ofBytes crowded.toBytes = .ok crowdedOnce ∧ ofBytes crowdedOnce.toBytes = .ok crowdedOnce ∧
      ∃ next after, Sync.syncPlaylist { actor := "cron", now := ⟨7⟩ } crowdedStore
          (crowdedRecord "Mix 2") = .ok (next, .updated false false) ∧
        next.playlist? ⟨32⟩ = .ok (some after) ∧ after.smart = some crowdedOnce := by
  have fits : (encodeCriteria crowded.ruleset).length < 4294967296 := by decide +kernel
  obtain ⟨once, read, -, kinds, -, kept⟩ := storing_again fits
  cases ofBytes_crowded.symm.trans read
  have settled := (kinds (by decide +kernel)).2 (by decide +kernel)
  obtain ⟨next, sync⟩ := syncPlaylist_crowdedRecord
  obtain ⟨after, found, rules⟩ :=
    kept settled _ _ _ _ _ _ (changesOther_crowdedRecord _ rfl) sync
  exact ⟨fits, read, settled, next, after, sync, found, rules⟩

/-- Dates that are the start of 1904 twice, and a text that a location is compared with. -/
def vanishing : Smart where
  ruleset :=
    ⟨.and, [.date ⟨.dateAdded, .pos, .between, [⟨-2082844800000⟩, ⟨-2082844800000⟩]⟩,
      .text ⟨.location, .strPos, .contains, ["x"]⟩]⟩

/-- One of the dates is left, and the text is not understood. -/
def vanishingOnce : Smart where
  ruleset :=
    ⟨.and, [.date ⟨.dateAdded, .pos, .between, [⟨-2082844800000⟩]⟩,
      .unknown ⟨.location, .strPos, .contains, ()⟩]⟩

/-- When they are stored again, both are lost. -/
theorem drifts_vanishing :
    (encodeCriteria vanishing.ruleset).length < 4294967296 ∧
      ofBytes vanishing.toBytes = .ok vanishingOnce ∧
      ofBytes vanishingOnce.toBytes =
        .ok ⟨⟨.and, [.date ⟨.dateAdded, .pos, .between, []⟩]⟩, none, false, false⟩ ∧
      ofBytes vanishingOnce.toBytes ≠ .ok vanishingOnce := by
  decide +kernel

end Smart

end MusicLibrary
