import MusicLibrary.Proofs.Playlist.MergeRule
import MusicLibrary.Sync.Playlist
import MusicLibrary.Sync.Track

/-! The exits of a synchronisation, one constructor each: why it was taken, the store behind it and
what is told of the record. Everything that a step preserves is shown from these. -/

namespace MusicLibrary.Sync

/-- The change that is merged into a stored entry: the snapshot was read, and differs from the
record. -/
structure Differs (options : Options) (store : Store) (kind : EntityKind) (id : PersistentId)
    (data previous : String) : Prop where
  seen : store.snapshot? kind options.owner id.hex = some previous
  other : previous ≠ data

/-- The exits of `syncTrack`. -/
inductive TrackStep (options : Options) (store : Store) (record : TrackRecord) :
    Store → Outcome → Prop
  | nameless (name : record.persistentId = none) :
    TrackStep options store record store (.skipped .missingPersistentId)
  | notImportable {id} (name : record.persistentId = some id)
    (refused : record.isImportable = false) :
    TrackStep options store record store (.skipped .notImportable)
  | known {id} (name : record.persistentId = some id)
    (seen : store.snapshot? .track options.owner id.hex = some record.toJson.compact) :
    TrackStep options store record store .unchanged
  | gone {id previous} (name : record.persistentId = some id)
    (differs : Differs options store .track id record.toJson.compact previous)
    (absent : store.track? id = none) :
    TrackStep options store record store (.skipped .deletedLocally)
  | created {id} (name : record.persistentId = some id)
    (fresh : store.snapshot? .track options.owner id.hex = none) :
    TrackStep options store record (createTrack options store id record).1 .created
  | settled {id previous stored oldId old track} (name : record.persistentId = some id)
    (differs : Differs options store .track id record.toJson.compact previous)
    (row : store.track? id = some stored)
    (base : recordOf TrackRecord.ofJson? (·.persistentId) previous = .ok (oldId, old))
    (nothing : stored.update? (.ofRecord oldId old) (.ofRecord id record) options.now =
      some (track, [])) :
    TrackStep options store record
      (store.putSnapshot .track options.owner id.hex record.toJson.compact) .unchanged
  | merged {id previous stored oldId old track changed} (name : record.persistentId = some id)
    (differs : Differs options store .track id record.toJson.compact previous)
    (row : store.track? id = some stored)
    (base : recordOf TrackRecord.ofJson? (·.persistentId) previous = .ok (oldId, old))
    (update : stored.update? (.ofRecord oldId old) (.ofRecord id record) options.now =
      some (track, changed))
    (something : changed ≠ []) :
    TrackStep options store record
      (((store.writeTrack track).putSnapshot .track options.owner id.hex
        record.toJson.compact).record options.actor "sync_track" .trackUpdated id.hex none
        (some (String.intercalate "," (changed.map (·.label))))) (.updated false false)

/-- The exits of `syncPlaylist`. -/
inductive PlaylistStep (options : Options) (store : Store) (record : PlaylistRecord) :
    Store → Outcome → Prop
  | nameless (name : record.persistentId = none) :
    PlaylistStep options store record store (.skipped .missingPersistentId)
  | system {id} (name : record.persistentId = some id)
    (refused : (options.skipsSystemPlaylists && record.isSystem) = true) :
    PlaylistStep options store record store (.skipped .systemPlaylist)
  | known {id} (name : record.persistentId = some id)
    (seen : store.snapshot? .playlist options.owner id.hex = some record.toJson.compact) :
    PlaylistStep options store record store .unchanged
  | gone {id previous} (name : record.persistentId = some id)
    (differs : Differs options store .playlist id record.toJson.compact previous)
    (absent : store.playlist? id = .ok none) :
    PlaylistStep options store record store (.skipped .deletedLocally)
  | created {id written} (name : record.persistentId = some id)
    (fresh : store.snapshot? .playlist options.owner id.hex = none)
    (write : store.writePlaylist (.ofRecord id record) = .ok written) :
    PlaylistStep options store record
      ((written.putSnapshot .playlist options.owner id.hex record.toJson.compact).record
        options.actor "sync_playlist" .playlistCreated id.hex none none) .created
  | otherShape {id previous stored oldId old} (name : record.persistentId = some id)
    (differs : Differs options store .playlist id record.toJson.compact previous)
    (row : store.playlist? id = .ok (some stored))
    (base : recordOf PlaylistRecord.ofJson? (·.persistentId) previous = .ok (oldId, old))
    (refused : stored.hasOtherShape (.ofRecord id record) = true) :
    PlaylistStep options store record store (.skipped .shapeChanged)
  | settled {id previous stored oldId old playlist change} (name : record.persistentId = some id)
    (differs : Differs options store .playlist id record.toJson.compact previous)
    (row : store.playlist? id = .ok (some stored))
    (base : recordOf PlaylistRecord.ofJson? (·.persistentId) previous = .ok (oldId, old))
    (update : stored.update? (.ofRecord oldId old) (.ofRecord id record) options.now =
      some (playlist, change))
    (nothing : change.changed = false) :
    PlaylistStep options store record
      (store.putSnapshot .playlist options.owner id.hex record.toJson.compact) .unchanged
  | merged {id previous stored oldId old playlist change written}
    (name : record.persistentId = some id)
    (differs : Differs options store .playlist id record.toJson.compact previous)
    (row : store.playlist? id = .ok (some stored))
    (base : recordOf PlaylistRecord.ofJson? (·.persistentId) previous = .ok (oldId, old))
    (update : stored.update? (.ofRecord oldId old) (.ofRecord id record) options.now =
      some (playlist, change))
    (something : change.changed = true)
    (write : store.writePlaylist playlist = .ok written) :
    PlaylistStep options store record
      (recordPlaylistChange options
        (written.putSnapshot .playlist options.owner id.hex record.toJson.compact) id
        stored.parentId playlist.parentId change.parentChanged)
      (.updated change.parentChanged change.conflict)

/-- What became of a playlist is told to the audit trail and changes nothing else. -/
theorem recordPlaylistChange_eq (options : Options) (store : Store) (id : PersistentId)
    (old new : Option PersistentId) (moved : Bool) :
    ∃ audit, recordPlaylistChange options store id old new moved = { store with audit } := by
  cases moved <;> exact ⟨_, rfl⟩

variable {options : Options} {store next : Store} {outcome : Outcome}

theorem trackStep_of_merge {record : TrackRecord} {id : PersistentId} {previous : String}
    {stored : Track} (name : record.persistentId = some id)
    (differs : Differs options store .track id record.toJson.compact previous)
    (row : store.track? id = some stored)
    (h : mergeTrack options store id record previous stored = .ok (next, outcome)) :
    TrackStep options store record next outcome := by
  obtain ⟨⟨oldId, old⟩, base, h⟩ := bind_eq_ok h
  obtain ⟨⟨track, changed⟩, told, h⟩ := bind_eq_ok h
  have update := Store.told_eq_ok_iff.mp told
  dsimp only at h
  by_cases nothing : changed = []
  · subst nothing
    simp only [List.isEmpty_nil, if_true] at h
    cases h
    exact .settled name differs row base update
  · rw [if_neg (by simpa using nothing)] at h
    cases h
    exact .merged name differs row base update nothing

/-- Whatever `syncTrack` yields, it yields by one of its exits. -/
theorem trackStep_of_syncTrack {record : TrackRecord}
    (h : syncTrack options store record = .ok (next, outcome)) :
    TrackStep options store record next outcome := by
  unfold syncTrack at h
  split at h
  · rename_i name
    cases h
    exact .nameless name
  · rename_i id name
    split at h
    · rename_i refused
      cases h
      exact .notImportable name (by simpa using refused)
    · split at h
      · rename_i fresh
        cases h
        exact .created name fresh
      · rename_i previous seen
        split at h
        · rename_i same
          cases h
          rw [same] at seen
          exact .known name seen
        · rename_i other
          split at h
          · rename_i absent
            cases h
            exact .gone name ⟨seen, other⟩ absent
          · rename_i stored row
            exact trackStep_of_merge name ⟨seen, other⟩ row h

theorem playlistStep_of_merge {record : PlaylistRecord} {id : PersistentId} {previous : String}
    {stored : Playlist} (name : record.persistentId = some id)
    (differs : Differs options store .playlist id record.toJson.compact previous)
    (row : store.playlist? id = .ok (some stored))
    (h : mergePlaylist options store id record previous stored = .ok (next, outcome)) :
    PlaylistStep options store record next outcome := by
  obtain ⟨⟨oldId, old⟩, base, h⟩ := bind_eq_ok h
  cases update : stored.update? (.ofRecord oldId old) (.ofRecord id record) options.now with
  | none =>
    simp only [update] at h
    cases h
    have refused := Playlist.hasOtherShape_iff.2 (Playlist.update?_eq_none_iff.1 update)
    exact .otherShape name differs row base refused
  | some result =>
    obtain ⟨playlist, change⟩ := result
    simp only [update] at h
    cases changed : change.changed with
    | false =>
      simp only [changed, Bool.not_false, if_true] at h
      cases h
      exact .settled name differs row base update changed
    | true =>
      simp only [changed, Bool.not_true, Bool.false_eq_true, if_false] at h
      obtain ⟨written, write, h⟩ := bind_eq_ok h
      cases h
      exact .merged name differs row base update changed write

/-- Whatever `syncPlaylist` yields, it yields by one of its exits. -/
theorem playlistStep_of_syncPlaylist {record : PlaylistRecord}
    (h : syncPlaylist options store record = .ok (next, outcome)) :
    PlaylistStep options store record next outcome := by
  unfold syncPlaylist at h
  split at h
  · rename_i name
    cases h
    exact .nameless name
  · rename_i id name
    split at h
    · rename_i refused
      cases h
      exact .system name refused
    · split at h
      · rename_i fresh
        obtain ⟨written, write, h⟩ := bind_eq_ok h
        cases h
        exact .created name fresh write
      · rename_i previous seen
        split at h
        · rename_i same
          cases h
          rw [same] at seen
          exact .known name seen
        · rename_i other
          obtain ⟨row?, row, h⟩ := bind_eq_ok h
          cases row? with
          | none =>
            cases h
            exact .gone name ⟨seen, other⟩ row
          | some stored => exact playlistStep_of_merge name ⟨seen, other⟩ row h

end MusicLibrary.Sync
