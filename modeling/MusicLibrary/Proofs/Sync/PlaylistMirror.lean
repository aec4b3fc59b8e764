import MusicLibrary.Proofs.Store.StoredRows
import MusicLibrary.Proofs.Sync.SnapshotRecords

/-! Playlists that nobody has edited. A merge brings them up to the new state of the file, all but
two fields: the kind and the genius track stay what they were when the playlist was created. -/

namespace MusicLibrary

namespace Playlist

/-- A playlist without its dates. -/
def undated (playlist : Playlist) : Playlist :=
  { playlist with dateAdded := none, dateModified := none }

variable {stored old new playlist : Playlist} {now : Timestamp} {change : Change}

theorem Follows.eq_new {stored old new result : α} (h : Follows stored old new result)
    (unedited : stored = old) : result = new := by
  by_cases same : old = new
  · rw [h.kept same, unedited, same]
  · exact h.adopted same

theorem ListFollows.eq_new {stored old new result : List PersistentId} {conflict : Bool}
    (h : ListFollows stored old new result conflict) (unedited : stored = old) : result = new := by
  by_cases same : old = new
  · rw [(h.kept same).1, unedited, same]
  · exact (h.adopted same unedited).1

/-- Merged into a playlist that nobody has edited, the new state of the file replaces all of it but
the kind and the genius track. -/
theorem undated_of_update? (h : stored.update? old new now = some (playlist, change))
    (unedited : stored.undated = old.undated) (same : old.id = new.id) :
    playlist.undated =
      { new.undated with kind := stored.kind, geniusTrackId := stored.geniusTrackId } := by
  have rule := isMerge_of_update? h
  have id : playlist.id = new.id := rule.id.trans ((congrArg Playlist.id unedited).trans same)
  have parent := rule.parentId.eq_new (congrArg Playlist.parentId unedited :)
  have name := rule.name.eq_new (congrArg Playlist.name unedited :)
  have smart := rule.smart.eq_new (congrArg Playlist.smart unedited :)
  have tracks := rule.trackIds.eq_new (congrArg Playlist.trackIds unedited :)
  have folder : playlist.folder = new.folder := by
    rw [rule.folder]
    by_contra differs
    rw [update?_eq_none_iff.2 (.inl differs)] at h
    cases h
  simp only [undated, id, parent, name, smart, tracks, folder, rule.kind, rule.geniusTrackId]

/-- What is merged into an unedited playlist from a store is stored as the new record is, but for
the kind and the genius track of the old one. -/
theorem asStored_of_update? {id : PersistentId} {old record : PlaylistRecord}
    (h : stored.update? (ofRecord id old) (ofRecord id record) now = some (playlist, change))
    (codes : stored.asStored = stored)
    (unedited : stored.undated = (ofRecord id old).undated) :
    playlist.undated.asStored = { (ofRecord id record).asStored.undated with
      kind := kindOf old, geniusTrackId := old.geniusTrackId } := by
  have kind : stored.kind = kindOf old := (congrArg Playlist.kind unedited :)
  have genius : stored.geniusTrackId = old.geniusTrackId :=
    (congrArg Playlist.geniusTrackId unedited :)
  have keptKind : PlaylistKind.ofCode stored.kind.code = stored.kind := congrArg Playlist.kind codes
  have keptGenius : stored.geniusTrackId.map PersistentId.stored = stored.geniusTrackId :=
    congrArg Playlist.geniusTrackId codes
  rw [undated_of_update? h unedited rfl, ← kind, ← genius]
  simp only [asStored, undated, keptKind, keptGenius]

/-- A merge that changes nothing leaves the stored playlist. -/
theorem undated_of_unchanged (h : stored.update? old new now = some (playlist, change))
    (nothing : change.changed = false) : stored.undated = playlist.undated := by
  have same : { playlist with dateModified := stored.dateModified } = stored := by
    by_contra differs
    rw [changed_iff_ne_of_update? h |>.2 differs] at nothing
    cases nothing
  calc
    stored.undated = ({ playlist with dateModified := stored.dateModified } : Playlist).undated :=
      by rw [same]
    _ = playlist.undated := rfl

theorem undated_asStored (playlist : Playlist) :
    playlist.asStored.undated = playlist.undated.asStored := rfl

/-- A plain playlist from a record stores all of its tracks: a folder comes without any. -/
theorem storedTrackIds_of_record (id : PersistentId) (record : PlaylistRecord)
    (folder : playlist.folder = (ofRecord id record).folder)
    (tracks : playlist.trackIds = (ofRecord id record).trackIds) (plain : playlist.smart = none) :
    playlist.storedTrackIds = playlist.trackIds := by
  rw [storedTrackIds, storesTracks, plain, folder, tracks]
  cases isFolder : record.isFolder <;> simp [ofRecord, isFolder]

end Playlist

namespace Sync

variable {options : Options} {store next : Store} {record old : PlaylistRecord}
  {id oldId : PersistentId} {previous : String} {stored : Playlist} {outcome : Outcome}

/-- A playlist that nobody has edited comes out of a synchronisation as the new state of the file,
as codes tell it, but for its kind and its genius track. -/
theorem playlist?_of_unedited (kept : store.IsStored) (records : store.SnapshotsAreRecords)
    (name : record.persistentId = some id) (row : store.playlist? id = .ok (some stored))
    (seen : store.snapshot? .playlist options.owner id.hex = some previous)
    (base : recordOf PlaylistRecord.ofJson? (·.persistentId) previous = .ok (oldId, old))
    (unedited : stored.undated = (Playlist.ofRecord oldId old).undated)
    (plain : Playlist.smartOf record = none)
    (sync : syncPlaylist options store record = .ok (next, outcome))
    (taken : outcome = .unchanged ∨ ∃ moved conflict, outcome = .updated moved conflict) :
    ∃ after, next.playlist? id = .ok (some after) ∧
      after.undated = { (Playlist.ofRecord id record).asStored.undated with
        kind := Playlist.kindOf old, geniusTrackId := old.geniusTrackId } := by
  obtain rfl := Store.recordOf_of_snapshot? records seen base
  have codes := Store.asStored_of_playlist? kept row
  cases playlistStep_of_syncPlaylist sync with
  | nameless name => simp at taken
  | system name refused => simp at taken
  | gone name differs absent => simp at taken
  | otherShape name differs row base refused => simp at taken
  | created name fresh write => simp at taken
  | known name' seen' =>
    cases name.symm.trans name'
    cases seen.symm.trans seen'
    cases base.symm.trans (record.recordOf_compact name)
    -- The snapshot is the record itself, so the row agrees with it already.
    have fixed : stored.undated.asStored = stored.undated := by
      rw [← Playlist.undated_asStored, codes]
    rw [unedited, Playlist.ofRecord_unnumbered] at fixed
    refine ⟨stored, row, ?_⟩
    rw [unedited, Playlist.ofRecord_unnumbered, Playlist.undated_asStored, fixed]
    rfl
  | settled name' differs row' base' update nothing =>
    cases name.symm.trans name'
    cases seen.symm.trans differs.seen
    cases row.symm.trans row'
    cases base.symm.trans base'
    refine ⟨stored, row, ?_⟩
    rw [← Playlist.asStored_of_update? update codes unedited,
      ← Playlist.undated_of_unchanged update nothing, ← Playlist.undated_asStored, codes]
  | @merged _ _ _ _ _ playlist _ written name' differs row' base' update something write =>
    cases name.symm.trans name'
    cases seen.symm.trans differs.seen
    cases row.symm.trans row'
    cases base.symm.trans base'
    have whole := Playlist.undated_of_update? update unedited rfl
    have plain' : playlist.smart = none := (congrArg Playlist.smart whole :).trans plain
    have listed := Playlist.storedTrackIds_of_record oldId record
      (congrArg Playlist.folder whole :) (congrArg Playlist.trackIds whole :) plain'
    have key : playlist.id.key = oldId.key :=
      congrArg PersistentId.key (congrArg Playlist.id whole :)
    have read := Store.playlist?_of_writePlaylist write plain' listed key
    refine ⟨playlist.asStored, ?_, ?_⟩
    · obtain ⟨audit, recorded⟩ := recordPlaylistChange_eq ..
      rw [recorded]
      exact read
    · rw [Playlist.undated_asStored, Playlist.asStored_of_update? update codes unedited]

/-- A playlist mirrors the library file as long as its kind and its genius track stay. Where nobody
has edited it, it is brought up to the new state of the file in every field but these two and the
dates; it agrees with that state exactly if the two have not changed and no id is the one that is
not kept. -/
theorem mirrors_file_iff {calls : List Call}
    (name : record.persistentId = some id)
    (row : (Store.empty.callAll calls).playlist? id = .ok (some stored))
    (seen : (Store.empty.callAll calls).snapshot? .playlist options.owner id.hex = some previous)
    (base : recordOf PlaylistRecord.ofJson? (·.persistentId) previous = .ok (oldId, old))
    (unedited : stored.undated = (Playlist.ofRecord oldId old).undated)
    (plain : Playlist.smartOf record = none)
    (sync : syncPlaylist options (Store.empty.callAll calls) record = .ok (next, outcome))
    (taken : outcome = .unchanged ∨ ∃ moved conflict, outcome = .updated moved conflict) :
    ∃ after, next.playlist? id = .ok (some after) ∧
      after.undated = { (Playlist.ofRecord id record).asStored.undated with
        kind := Playlist.kindOf old, geniusTrackId := old.geniusTrackId } ∧
      (after.undated = (Playlist.ofRecord id record).undated ↔
        Playlist.kindOf record = Playlist.kindOf old ∧
          record.geniusTrackId = old.geniusTrackId ∧
          record.parentPersistentId ≠ some .highBit ∧
          .highBit ∉ (Playlist.ofRecord id record).trackIds) := by
  have kept := Store.isStored_callAll calls
  have records := Store.snapshotsAreRecords_callAll calls
  obtain ⟨after, found, mirrored⟩ :=
    playlist?_of_unedited kept records name row seen base unedited plain sync taken
  refine ⟨after, found, mirrored, ?_⟩
  obtain rfl := Store.recordOf_of_snapshot? records seen base
  have own : oldId.stored = oldId := by
    have same : stored.id = oldId := (congrArg Playlist.id unedited :)
    rw [← same]
    exact congrArg Playlist.id (Store.asStored_of_playlist? kept row)
  rw [mirrored, ← PersistentId.map_stored_eq_iff, ← PersistentId.list_map_stored_eq_iff]
  simp only [Playlist.undated, Playlist.asStored, Playlist.mk.injEq]
  constructor
  · rintro ⟨-, parent, kind, -, -, -, -, -, genius, tracks⟩
    exact ⟨kind.symm, genius.symm, parent, tracks⟩
  · rintro ⟨kind, genius, parent, tracks⟩
    exact ⟨own, parent, kind.symm, trivial, trivial, trivial, trivial, trivial, genius.symm, tracks⟩

/-- In the file a list has got a new name and one more track. -/
theorem mirrors_file_renamed :
    let options : Options := { owner := some 1, actor := "cron", now := ⟨7⟩ }
    let old : PlaylistRecord :=
      { persistentId := some ⟨32⟩, name := some "Mix", trackIds := [⟨1⟩] }
    let record := { old with name := some "Mix 2", trackIds := [⟨1⟩, ⟨2⟩] }
    let store := Store.empty.callAll [.sync options (.playlist old)]
    ∃ next after, syncPlaylist options store record = .ok (next, .updated false false) ∧
      next.playlist? ⟨32⟩ = .ok (some after) ∧
      after.undated = (Playlist.ofRecord ⟨32⟩ record).undated := by
  intro options old record store
  have row : store.playlist? ⟨32⟩ = .ok (some (Playlist.ofRecord ⟨32⟩ old)) := by decide +kernel
  have seen : store.snapshot? .playlist (some 1) (PersistentId.hex ⟨32⟩) =
      some old.toJson.compact := by decide +kernel
  have told : (syncPlaylist options store record).map (·.2) = .ok (.updated false false) := by
    decide +kernel
  cases sync : syncPlaylist options store record with
  | error failure =>
    rw [sync] at told
    cases told
  | ok result =>
    obtain ⟨next, outcome⟩ := result
    rw [sync] at told
    obtain rfl : outcome = .updated false false := Except.ok.inj told
    obtain ⟨after, found, _, mirrors⟩ := mirrors_file_iff rfl row seen (old.recordOf_compact rfl)
      rfl rfl sync (.inr ⟨false, false, rfl⟩)
    exact ⟨next, after, rfl, found, mirrors.2 ⟨rfl, rfl, by decide, by decide⟩⟩

/-- A list that has become a genius playlist in the file gets its new name, but stays a plain list
here. Its snapshot says otherwise from then on, so the change never comes again. -/
theorem mirrors_not_genius :
    let options : Options := { owner := some 1, actor := "cron", now := ⟨7⟩ }
    let old : PlaylistRecord :=
      { persistentId := some ⟨32⟩, name := some "Mix", trackIds := [⟨1⟩] }
    let record := { old with name := some "Mix 2", geniusTrackId := some ⟨1⟩ }
    let store := Store.empty.callAll [.sync options (.playlist old)]
    let next := store.commit (.sync options (.playlist record))
    let after := { Playlist.ofRecord ⟨32⟩ old with name := "Mix 2", dateModified := some ⟨7⟩ }
    store.playlist? ⟨32⟩ = .ok (some (Playlist.ofRecord ⟨32⟩ old)) ∧
      store.snapshot? .playlist (some 1) (PersistentId.hex ⟨32⟩) = some old.toJson.compact ∧
      Playlist.smartOf old = none ∧ Playlist.smartOf record = none ∧
      (syncPlaylist options store record).map (·.2) = .ok (.updated false false) ∧
      next.playlist? ⟨32⟩ = .ok (some after) ∧
      after.undated ≠ (Playlist.ofRecord ⟨32⟩ record).undated := by
  decide +kernel

end Sync

end MusicLibrary
