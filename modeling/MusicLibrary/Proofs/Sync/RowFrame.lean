import MusicLibrary.Proofs.Store.Entry
import MusicLibrary.Proofs.Store.PlaylistChange
import MusicLibrary.Proofs.Track.Update

/-! The rows that a transaction leaves alone, or takes out: all but the one that it may write. -/

namespace MusicLibrary.Store

variable {store next : Store}

theorem tracks_of_syncPlaylist {options : Sync.Options} {record : PlaylistRecord}
    {outcome : Sync.Outcome} (h : Sync.syncPlaylist options store record = .ok (next, outcome)) :
    next.tracks = store.tracks := by
  cases Sync.playlistStep_of_syncPlaylist h with
  | nameless name => rfl
  | system name refused => rfl
  | known name seen => rfl
  | gone name differs absent => rfl
  | otherShape name differs row base refused => rfl
  | settled name differs row base update nothing => rfl
  | created name fresh write =>
    obtain ⟨_, rfl⟩ := of_writePlaylist write
    rfl
  | merged name differs row base update something write =>
    obtain ⟨_, rfl⟩ := of_writePlaylist write
    obtain ⟨audit, recorded⟩ := Sync.recordPlaylistChange_eq ..
    rw [recorded]
    rfl

theorem tracks_of_prunePlaylist {options : Sync.Options} {key : String}
    {id? : Option PersistentId} (h : Sync.prunePlaylist? options store key = some (next, id?)) :
    next.tracks = store.tracks := by
  cases Sync.playlistPruning_of_prunePlaylist h with
  | illegible parsed => rfl
  | absent parsed absent => rfl
  | removed parsed remove =>
    obtain ⟨_, _, rfl⟩ := of_removePlaylist remove
    rfl

theorem track?_of_tracks (h : next.tracks = store.tracks) (id : PersistentId) :
    next.track? id = store.track? id := by
  rw [track?, h]
  rfl

theorem track?_writeTrack_of_ne (store : Store) {track : Track} {id : PersistentId}
    (other : track.id.key ≠ id.key) : (store.writeTrack track).track? id = store.track? id := by
  apply (Table.find?_put _ _ _).trans
  apply if_neg
  change id.key ≠ track.id.stored.key
  rw [PersistentId.key_stored]
  exact other.symm

theorem track?_eraseTrack (store : Store) (erased id : PersistentId) :
    (store.eraseTrack erased).track? id = store.track? id ∨
      (store.eraseTrack erased).track? id = none := by
  have found : (store.eraseTrack erased).track? id =
      if id.key = erased.key then none else store.track? id := Table.find?_erase _ _ _
  rw [found]
  split
  · exact .inr rfl
  · exact .inl rfl

theorem track?_of_edit {change : Edit} {id : PersistentId} (h : store.edit change = .ok next)
    (other : ∀ named, (Transaction.edit change).written? = some (.track, named) →
      named.key ≠ id.key) :
    next.track? id = store.track? id ∨ next.track? id = none := by
  cases editStep_of_edit h with
  | trackSaved track actor => exact .inl (track?_writeTrack_of_ne store (other _ rfl))
  | trackDeleted there => exact track?_eraseTrack store _ id
  | playlistSaved old write =>
    obtain ⟨_, rfl⟩ := of_writePlaylist write
    exact .inl rfl
  | playlistDeleted remove =>
    obtain ⟨_, _, rfl⟩ := of_removePlaylist remove
    exact .inl rfl
  | tracksKept row same => exact .inl rfl
  | tracksRemoved row fewer => exact .inl rfl

theorem track?_of_syncTrack {options : Sync.Options} {record : TrackRecord}
    {outcome : Sync.Outcome} {id : PersistentId}
    (h : Sync.syncTrack options store record = .ok (next, outcome))
    (other : ∀ named, record.persistentId = some named → named.key ≠ id.key) :
    next.track? id = store.track? id := by
  cases Sync.trackStep_of_syncTrack h with
  | nameless name => rfl
  | notImportable name refused => rfl
  | known name seen => rfl
  | gone name differs absent => rfl
  | settled name differs row base nothing => rfl
  | created name fresh => exact track?_writeTrack_of_ne store (other _ name)
  | @merged named previous stored oldId old track changed name differs row base update something =>
    -- The merged track goes to the row that it was read from.
    have same : track.id = stored.id := Track.id_of_update? update
    have key : stored.id.key = named.key := Table.key_of_find? row
    refine track?_writeTrack_of_ne store ?_
    rw [same, key]
    exact other _ name

theorem track?_pruneTrack (options : Sync.Options) (store : Store) (key : String)
    (id : PersistentId) :
    (Sync.pruneTrack options store key).1.track? id = store.track? id ∨
      (Sync.pruneTrack options store key).1.track? id = none := by
  cases step : Sync.pruneTrack options store key with
  | mk next id? =>
    cases Sync.trackPruning_of_pruneTrack step with
    | illegible parsed => exact .inl rfl
    | absent parsed absent => exact track?_eraseTrack _ _ id
    | removed parsed there => exact track?_eraseTrack _ _ id

/-- The row of a track stays or is taken out, unless it is the one that is written. -/
theorem track?_commit_of_ne {t : Transaction} {id : PersistentId}
    (other : ∀ named, t.written? = some (.track, named) → named.key ≠ id.key) :
    (store.commit t).track? id = store.track? id ∨ (store.commit t).track? id = none := by
  cases attempt : store.attempt t with
  | error failure =>
    rw [commit_of_error attempt]
    exact .inl rfl
  | ok next =>
    rw [commit_of_ok attempt]
    cases t with
    | edit change => exact track?_of_edit attempt other
    | sync options record =>
      obtain ⟨outcome, step⟩ := syncRecord_of_attempt attempt
      cases record with
      | track record =>
        refine .inl (track?_of_syncTrack step ?_)
        intro named name
        exact other named (LibraryRecord.subject?_of_named (.track record) name)
      | playlist record => exact .inl (track?_of_tracks (tracks_of_syncPlaylist step) id)
    | pruneTrack options key =>
      obtain rfl := Except.ok.inj attempt
      exact track?_pruneTrack options store key id
    | prunePlaylist options key =>
      obtain ⟨id?, prune⟩ := prunePlaylist_of_attempt attempt
      exact .inl (track?_of_tracks (tracks_of_prunePlaylist prune) id)

/-- The row of a playlist stays or is taken out, unless it is the one that is written. -/
theorem playlist_row_commit_of_ne {t : Transaction} {id : PersistentId}
    (other : ∀ named, t.written? = some (.playlist, named) → named.key ≠ id.key) :
    (store.commit t).playlists.find? id.key = store.playlists.find? id.key ∨
      (store.commit t).playlists.find? id.key = none := by
  have apart {brought : Playlist} (bring : t.brought? = some brought) :
      brought.id.key ≠ id.key := by
    apply other
    unfold Transaction.brought? at bring
    split at bring
    · cases bring
      rfl
    · rename_i options record
      obtain ⟨named, name, rfl⟩ := Option.map_eq_some_iff.1 bring
      exact LibraryRecord.subject?_of_named (.playlist record) name
    · cases bring
  have put {playlist : Playlist} (key : playlist.id.key ≠ id.key) :
      (store.playlists.put (.ofPlaylist playlist)).find? id.key = store.playlists.find? id.key := by
    rw [Table.find?_put, if_neg]
    change id.key ≠ playlist.id.stored.key
    rw [PersistentId.key_stored]
    exact key.symm
  have change := store.playlistChange_commit t
  generalize (store.commit t).playlists = rows at change ⊢
  cases change with
  | kept whole => exact .inl rfl
  | written whole placed => exact .inl (put (apart (brought?_of_overwrite? whole)))
  | @merged playlist brought stored whole placed bring read same folder parent =>
    left
    apply put
    obtain ⟨row, found, storedId, _⟩ := of_playlist? read
    have key : row.id.key = brought.id.key := Table.key_of_find? found
    rw [same, storedId, key]
    exact apart bring
  | @removed erased whole bare =>
    rw [Table.find?_erase]
    split
    · exact .inr rfl
    · exact .inl rfl

end MusicLibrary.Store
