import MusicLibrary.Proofs.Sync.Stream

/-! Records that are settled. Once a record was synchronised without a failure, the same record has
nothing more to do, whatever the clock says; and it stays that way as long as nobody moves its
baseline or writes its row. -/

namespace MusicLibrary.Sync

/-- A record that is not taken in, whatever the store holds. -/
def passesOver (options : Options) : LibraryRecord → Bool
  | .track record => record.persistentId.isNone || !record.isImportable
  | .playlist record =>
    record.persistentId.isNone || (options.skipsSystemPlaylists && record.isSystem)

/-- Why a record has nothing to do in a store. -/
inductive Settled (options : Options) (store : Store) : LibraryRecord → Prop
  | passed {record} (skipped : passesOver options record = true) : Settled options store record
  | known {record id} (name : record.persistentId = some id)
    (seen : store.snapshot? record.kind options.owner id.hex = some record.toJson.compact) :
    Settled options store record
  | gone {record id} (name : record.persistentId = some id)
    (seen : store.snapshot? record.kind options.owner id.hex ≠ none)
    (absent : store.row? record.kind id = none) : Settled options store record
  | refused {record id previous oldId old row} (name : record.persistentId = some id)
    (seen : store.snapshot? .playlist options.owner id.hex = some previous)
    (base : recordOf PlaylistRecord.ofJson? (·.persistentId) previous = .ok (oldId, old))
    (found : store.playlists.find? id.key = some row)
    (other : ∀ trackIds, ∃ stored, row.playlist? trackIds = some stored ∧
      stored.hasOtherShape (.ofRecord id record) = true) : Settled options store (.playlist record)

variable {options : Options} {store next : Store} {outcome : Outcome} {record : LibraryRecord}

/-- The shape of a playlist is told by its row alone. -/
theorem hasOtherShape_of_playlist? {row : PlaylistRow} {trackIds : List PersistentId}
    {stored new : Playlist} (read : row.playlist? trackIds = some stored)
    (other : stored.hasOtherShape new = true) (trackIds' : List PersistentId) :
    ∃ stored', row.playlist? trackIds' = some stored' ∧ stored'.hasOtherShape new = true := by
  obtain ⟨smart, rules, rfl⟩ := Option.map_eq_some_iff.1 read
  exact ⟨_, Option.map_eq_some_iff.2 ⟨smart, rules, rfl⟩, other⟩

/-- What was taken in is known afterwards. -/
theorem settled_of_isBaseline (h : IsBaseline options store record) :
    Settled options store record := by
  obtain ⟨id, name, seen⟩ := h
  exact .known name seen

theorem settled_of_syncTrack {record : TrackRecord}
    (h : syncTrack options store record = .ok (next, outcome)) :
    Settled options next (.track record) := by
  have step := trackStep_of_syncTrack h
  have described := step.describes
  cases step with
  | nameless name => exact .passed (by simp [passesOver, name])
  | notImportable name refused => exact .passed (by simp [passesOver, refused])
  | gone name differs absent =>
    refine .gone name ?_ (congrArg (Option.map EntryRow.track) absent)
    rw [LibraryRecord.kind, differs.seen]
    exact Option.some_ne_none _
  | known => exact settled_of_isBaseline described.1
  | settled => exact settled_of_isBaseline described.1
  | created => exact settled_of_isBaseline described
  | merged => exact settled_of_isBaseline described

theorem settled_of_syncPlaylist {record : PlaylistRecord}
    (h : syncPlaylist options store record = .ok (next, outcome)) :
    Settled options next (.playlist record) := by
  have step := playlistStep_of_syncPlaylist h
  have described := step.describes
  cases step with
  | nameless name => exact .passed (by simp [passesOver, name])
  | system name refused => exact .passed (by simp [passesOver, refused])
  | gone name differs absent =>
    refine .gone name ?_ (Store.row?_playlist_eq_none.2 absent)
    rw [LibraryRecord.kind, differs.seen]
    exact Option.some_ne_none _
  | otherShape name differs row base refused =>
    obtain ⟨row, found, read⟩ := Store.playlist?_eq_some.1 row
    exact .refused name differs.seen base found (hasOtherShape_of_playlist? read refused)
  | known => exact settled_of_isBaseline described.1
  | settled => exact settled_of_isBaseline described.1
  | created => exact settled_of_isBaseline described
  | merged => exact settled_of_isBaseline described

/-- A record that was synchronised without a failure is settled. -/
theorem settled_of_syncRecord (h : syncRecord options store record = .ok (next, outcome)) :
    Settled options next record := by
  cases record with
  | track record => exact settled_of_syncTrack h
  | playlist record => exact settled_of_syncPlaylist h

/-- A record stays settled where its entry is spared. A row that was refused may be taken out; the
entry is then deleted. -/
theorem Settled.spared (h : Settled options store record)
    (spares : ∀ id, record.persistentId = some id →
      Store.Spares options.owner record.kind id store next) :
    Settled options next record := by
  cases h with
  | passed skipped => exact .passed skipped
  | known name seen => exact .known name ((spares _ name).baseline.trans seen)
  | gone name seen absent =>
    have spared := spares _ name
    refine .gone name ?_ ?_
    · rw [spared.baseline]
      exact seen
    · rcases spared.row with same | gone
      · rw [same]
        exact absent
      · exact gone
  | @refused record id previous oldId old row name seen base found other =>
    have spared := spares id name
    have seen' : next.snapshot? .playlist options.owner id.hex = some previous :=
      spared.baseline.trans seen
    rcases spared.row with same | gone
    · have row' : (next.playlists.find? id.key).map EntryRow.playlist =
          (some row).map EntryRow.playlist := by
        rw [← found]
        exact same
      have found' : next.playlists.find? id.key = some row :=
        Option.map_injective (fun _ _ => EntryRow.playlist.inj) row'
      exact .refused name seen' base found' other
    · refine .gone name ?_ gone
      rw [LibraryRecord.kind, seen']
      exact Option.some_ne_none _

theorem Settled.syncTrack {record : TrackRecord} (h : Settled options store (.track record))
    (now : Timestamp) :
    ∃ outcome, Sync.syncTrack { options with now } store record = .ok (store, outcome) ∧
      outcome.change? = none := by
  unfold Sync.syncTrack
  cases name : record.persistentId with
  | none => exact ⟨_, rfl, rfl⟩
  | some id =>
    cases importable : record.isImportable with
    | false => exact ⟨_, rfl, rfl⟩
    | true =>
      cases h with
      | passed skipped => simp [passesOver, name, importable] at skipped
      | known name' seen =>
        cases name.symm.trans name'
        refine ⟨.unchanged, ?_, rfl⟩
        simp only [LibraryRecord.kind, LibraryRecord.toJson] at seen
        simp [seen]
      | gone name' seen absent =>
        cases name.symm.trans name'
        obtain ⟨previous, seen⟩ := Option.ne_none_iff_exists'.1 seen
        have absent := Store.row?_track_eq_none.1 absent
        simp only [LibraryRecord.kind] at seen
        by_cases same : previous = record.toJson.compact
        · exact ⟨.unchanged, by simp [seen, same], rfl⟩
        · exact ⟨.skipped .deletedLocally, by simp [seen, same, absent], rfl⟩

theorem Settled.syncPlaylist {record : PlaylistRecord}
    (h : Settled options store (.playlist record)) (now : Timestamp) :
    ∃ outcome, Sync.syncPlaylist { options with now } store record = .ok (store, outcome) ∧
      outcome.change? = none := by
  unfold Sync.syncPlaylist
  cases name : record.persistentId with
  | none => exact ⟨_, rfl, rfl⟩
  | some id =>
    cases system : options.skipsSystemPlaylists && record.isSystem with
    | true => exact ⟨_, rfl, rfl⟩
    | false =>
      cases h with
      | passed skipped => simp [passesOver, name, system] at skipped
      | known name' seen =>
        cases name.symm.trans name'
        refine ⟨.unchanged, ?_, rfl⟩
        simp only [LibraryRecord.kind, LibraryRecord.toJson] at seen
        simp [seen]
      | gone name' seen absent =>
        cases name.symm.trans name'
        obtain ⟨previous, seen⟩ := Option.ne_none_iff_exists'.1 seen
        have absent := Store.row?_playlist_eq_none.1 absent
        simp only [LibraryRecord.kind] at seen
        by_cases same : previous = record.toJson.compact
        · exact ⟨.unchanged, by simp [seen, same], rfl⟩
        · refine ⟨.skipped .deletedLocally, ?_, rfl⟩
          simp [seen, same, absent, bind, Except.bind, pure, Except.pure]
      | refused name' seen base found other =>
        cases name.symm.trans name'
        rename_i previous _ _ row
        by_cases same : previous = record.toJson.compact
        · exact ⟨.unchanged, by simp [seen, same], rfl⟩
        · obtain ⟨stored, read, shape⟩ := other (store.trackIds id)
          have there := Store.playlist?_eq_some.2 ⟨row, found, read⟩
          refine ⟨.skipped .shapeChanged, ?_, rfl⟩
          simp [seen, same, there, mergePlaylist, base, Playlist.update?, shape, bind, Except.bind,
            pure, Except.pure]

end MusicLibrary.Sync
