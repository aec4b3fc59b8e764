import MusicLibrary.Proofs.PersistentId
import MusicLibrary.Proofs.Playlist.MergeRule
import MusicLibrary.Proofs.Sync.PruneSteps

/-! What a transaction does to the rows of playlists: it leaves them alone, writes one playlist
whose place was checked, or takes out one in which no other lies. -/

namespace MusicLibrary

/-- The playlist that a transaction brings. -/
def Transaction.brought? : Transaction → Option Playlist
  | .edit (.savePlaylist playlist _) => some playlist
  | .sync _ (.playlist record) => record.persistentId.map (Playlist.ofRecord · record)
  | _ => none

namespace Store

/-- The playlist that a transaction writes just as it brings it, whatever row is there: one that is
saved, or a record that its owner sees for the first time. -/
def overwrite? (store : Store) : Transaction → Option Playlist
  | .edit (.savePlaylist playlist actor) =>
    match store.savePlaylist playlist actor with
    | .ok _ => some playlist
    | .error _ => none
  | .sync options (.playlist record) =>
    match Sync.syncPlaylist options store record with
    | .ok (_, .created) => record.persistentId.map (Playlist.ofRecord · record)
    | _ => none
  | _ => none

/-- The rows of playlists behind a transaction. -/
inductive PlaylistChange (store : Store) (t : Transaction) : Table PlaylistRow → Prop
  | kept (whole : store.overwrite? t = none) : PlaylistChange store t store.playlists
  | written {playlist} (whole : store.overwrite? t = some playlist)
    (placed : store.checkHierarchy playlist = .ok ()) :
    PlaylistChange store t (store.playlists.put (.ofPlaylist playlist))
  | merged {playlist brought stored} (whole : store.overwrite? t = none)
    (placed : store.checkHierarchy playlist = .ok ()) (bring : t.brought? = some brought)
    (row : store.playlist? brought.id = .ok (some stored)) (id : playlist.id = stored.id)
    (folder : playlist.folder = stored.folder)
    (parent : playlist.parentId = stored.parentId ∨ playlist.parentId = brought.parentId) :
    PlaylistChange store t (store.playlists.put (.ofPlaylist playlist))
  | removed {id} (whole : store.overwrite? t = none) (bare : store.hasChildren id = false) :
    PlaylistChange store t (store.playlists.erase id.key)

theorem brought?_of_overwrite? {store : Store} {t : Transaction} {playlist : Playlist}
    (h : store.overwrite? t = some playlist) : t.brought? = some playlist := by
  unfold overwrite? at h
  split at h
  · rename_i saved actor
    split at h
    · exact h
    · cases h
  · rename_i options record
    split at h
    · exact h
    · cases h
  · cases h

variable {store next : Store}

/-- A playlist is read from its row and its tracks. -/
theorem playlist?_eq_some {id : PersistentId} {stored : Playlist} :
    store.playlist? id = .ok (some stored) ↔
      ∃ row, store.playlists.find? id.key = some row ∧
        row.playlist? (store.trackIds id) = some stored := by
  unfold playlist?
  cases found : store.playlists.find? id.key with
  | none => simp
  | some row => cases read : row.playlist? (store.trackIds id) <;> simp [read, told, Except.map]

theorem of_playlist? {id : PersistentId} {stored : Playlist}
    (h : store.playlist? id = .ok (some stored)) :
    ∃ row, store.playlists.find? id.key = some row ∧ stored.id = row.id ∧
      stored.parentId = row.parentId ∧ stored.folder = row.folder := by
  obtain ⟨row, found, read⟩ := playlist?_eq_some.1 h
  obtain ⟨smart, _, rfl⟩ := Option.map_eq_some_iff.1 read
  exact ⟨row, found, rfl, rfl, rfl⟩

/-- The row of a playlist that was written. -/
theorem find?_of_writePlaylist {playlist : Playlist} {id : PersistentId}
    (h : store.writePlaylist playlist = .ok next) (key : playlist.id.key = id.key) :
    next.playlists.find? id.key = some (.ofPlaylist playlist) := by
  obtain ⟨_, rfl⟩ := of_writePlaylist h
  rw [Table.find?_put, if_pos]
  exact key.symm.trans (PersistentId.key_stored playlist.id).symm

theorem playlists_of_syncTrack {options : Sync.Options} {record : TrackRecord}
    {outcome : Sync.Outcome} (h : Sync.syncTrack options store record = .ok (next, outcome)) :
    next.playlists = store.playlists := by
  cases Sync.trackStep_of_syncTrack h <;> rfl

/-- A merge never changes the id or the shape of a playlist, and moves it only where it was or
where the file says. -/
theorem of_update? {stored old new result : Playlist} {now : Timestamp} {change : Playlist.Change}
    (h : stored.update? old new now = some (result, change)) :
    result.id = stored.id ∧ result.folder = stored.folder ∧
      (result.parentId = stored.parentId ∨ result.parentId = new.parentId) := by
  have rule := Playlist.isMerge_of_update? h
  refine ⟨rule.id, rule.folder, ?_⟩
  by_cases same : old.parentId = new.parentId
  · exact .inl (rule.parentId.kept same)
  · exact .inr (rule.parentId.adopted same)

theorem playlistChange_of_syncPlaylist {options : Sync.Options} {record : PlaylistRecord}
    {outcome : Sync.Outcome} (h : Sync.syncPlaylist options store record = .ok (next, outcome)) :
    store.PlaylistChange (.sync options (.playlist record)) next.playlists := by
  cases Sync.playlistStep_of_syncPlaylist h with
  | nameless name => exact .kept (by rw [overwrite?, h])
  | system name refused => exact .kept (by rw [overwrite?, h])
  | known name seen => exact .kept (by rw [overwrite?, h])
  | gone name differs absent => exact .kept (by rw [overwrite?, h])
  | otherShape name differs row base refused => exact .kept (by rw [overwrite?, h])
  | settled name differs row base update nothing => exact .kept (by rw [overwrite?, h])
  | created name fresh write =>
    obtain ⟨placed, rfl⟩ := of_writePlaylist write
    refine .written ?_ placed
    rw [overwrite?, h]
    simp [name]
  | @merged id previous stored oldId old playlist change written name differs row base update
      something write =>
    obtain ⟨placed, rfl⟩ := of_writePlaylist write
    obtain ⟨sameId, sameShape, parent⟩ := of_update? update
    obtain ⟨audit, recorded⟩ := Sync.recordPlaylistChange_eq ..
    rw [recorded]
    refine .merged (by rw [overwrite?, h]) placed ?_ row sameId sameShape parent
    simp [Transaction.brought?, name]

theorem playlistChange_of_edit {change : Edit} (h : store.edit change = .ok next) :
    store.PlaylistChange (.edit change) next.playlists := by
  cases editStep_of_edit h with
  | trackSaved track actor => exact .kept rfl
  | trackDeleted there => exact .kept rfl
  | tracksKept row same => exact .kept rfl
  | tracksRemoved row fewer => exact .kept rfl
  | @playlistSaved playlist actor existing written old write =>
    obtain ⟨placed, rfl⟩ := of_writePlaylist write
    refine .written ?_ placed
    change store.savePlaylist playlist actor = .ok _ at h
    rw [overwrite?, h]
  | playlistDeleted remove =>
    obtain ⟨bare, _, rfl⟩ := of_removePlaylist remove
    exact .removed rfl bare

theorem playlists_pruneTrack (options : Sync.Options) (store : Store) (key : String) :
    (Sync.pruneTrack options store key).1.playlists = store.playlists := by
  cases pruned : Sync.pruneTrack options store key with
  | mk next id? => cases Sync.trackPruning_of_pruneTrack pruned <;> rfl

theorem playlistChange_of_prunePlaylist {options : Sync.Options} {key : String}
    {id? : Option PersistentId}
    (h : Sync.prunePlaylist? options store key = some (next, id?)) :
    store.PlaylistChange (.prunePlaylist options key) next.playlists := by
  cases Sync.playlistPruning_of_prunePlaylist h with
  | illegible parsed => exact .kept rfl
  | absent parsed absent => exact .kept rfl
  | removed parsed remove =>
    obtain ⟨bare, _, rfl⟩ := of_removePlaylist remove
    exact .removed rfl bare

theorem overwrite?_of_error {t : Transaction} {failure : Failure}
    (h : store.attempt t = .error failure) : store.overwrite? t = none := by
  cases t with
  | edit change =>
    cases change with
    | savePlaylist playlist actor =>
      change store.savePlaylist playlist actor = .error failure at h
      rw [overwrite?, h]
    | _ => rfl
  | sync options record =>
    cases record with
    | track record => rfl
    | playlist record =>
      cases step : Sync.syncRecord options store (.playlist record) with
      | error failure =>
        change Sync.syncPlaylist options store record = .error failure at step
        rw [overwrite?, step]
      | ok result =>
        obtain ⟨after, outcome⟩ := result
        rw [attempt_of_syncRecord step] at h
        cases h
  | _ => rfl

/-- Every transaction changes the rows of playlists in one of these ways. -/
theorem playlistChange_commit (store : Store) (t : Transaction) :
    store.PlaylistChange t (store.commit t).playlists := by
  cases attempt : store.attempt t with
  | error failure =>
    rw [commit_of_error attempt]
    exact .kept (overwrite?_of_error attempt)
  | ok next =>
    rw [commit_of_ok attempt]
    cases t with
    | edit change => exact playlistChange_of_edit attempt
    | sync options record =>
      obtain ⟨outcome, step⟩ := syncRecord_of_attempt attempt
      cases record with
      | track record =>
        rw [playlists_of_syncTrack step]
        exact .kept rfl
      | playlist record => exact playlistChange_of_syncPlaylist step
    | pruneTrack options key =>
      obtain rfl := Except.ok.inj attempt
      rw [playlists_pruneTrack]
      exact .kept rfl
    | prunePlaylist options key =>
      obtain ⟨id?, prune⟩ := prunePlaylist_of_attempt attempt
      exact playlistChange_of_prunePlaylist prune

end Store

end MusicLibrary
