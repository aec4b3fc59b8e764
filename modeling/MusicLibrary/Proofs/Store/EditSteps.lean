import MusicLibrary.Proofs.Store.History
import MusicLibrary.Proofs.Sync.Steps

/-! The exits of a user's change that takes place, one constructor each, with the store behind it.
What such a change preserves is shown from these. -/

namespace MusicLibrary.Store

/-- The exits of `edit`. -/
inductive EditStep (store : Store) : Edit → Store → Prop
  | trackSaved (track : Track) (actor : String) :
    EditStep store (.saveTrack track actor) (store.saveTrack track actor)
  | trackDeleted {id actor} (there : store.hasTrack id = true) :
    EditStep store (.deleteTrack id actor)
      ((store.eraseTrack id).record actor "delete_track" .trackDeleted id.hex none none)
  | playlistSaved {playlist actor existing written}
    (old : store.playlist? playlist.id = .ok existing)
    (write : store.writePlaylist playlist = .ok written) :
    EditStep store (.savePlaylist playlist actor)
      (written.record actor "save_playlist"
        (if existing.isSome then .playlistUpdated else .playlistCreated) playlist.id.hex none none)
  | playlistDeleted {id actor removed} (remove : store.removePlaylist id = .ok removed) :
    EditStep store (.deletePlaylist id actor)
      (removed.record actor "delete_playlist" .playlistDeleted id.hex none none)
  | tracksKept {id tracks actor playlist} (row : store.playlist? id = .ok (some playlist))
    (same : playlist.trackIds.length -
      (playlist.trackIds.filter (! tracks.contains ·)).length = 0) :
    EditStep store (.removeTracks id tracks actor) store
  | tracksRemoved {id tracks actor playlist} (row : store.playlist? id = .ok (some playlist))
    (fewer : playlist.trackIds.length -
      (playlist.trackIds.filter (! tracks.contains ·)).length ≠ 0) :
    EditStep store (.removeTracks id tracks actor)
      ((store.writeTrackIds id (playlist.trackIds.filter (! tracks.contains ·))).record actor
        "delete_tracks_from_playlist" .playlistTracksChanged id.hex
        (toString playlist.trackIds.length)
        (toString (playlist.trackIds.filter (! tracks.contains ·)).length))

variable {store next : Store}

theorem of_writePlaylist {playlist : Playlist} (h : store.writePlaylist playlist = .ok next) :
    store.checkHierarchy playlist = .ok () ∧
      next = { store with
        playlists := store.playlists.put (.ofPlaylist playlist)
        memberships := store.memberships.replace playlist.id.key
          (playlist.storedTrackIds.map PersistentId.key) } := by
  obtain ⟨_, placed, h⟩ := bind_eq_ok h
  cases h
  exact ⟨placed, rfl⟩

theorem of_removePlaylist {id : PersistentId} (h : store.removePlaylist id = .ok next) :
    store.hasChildren id = false ∧ store.playlists.contains id.key = true ∧
      next = { store with
        playlists := store.playlists.erase id.key
        memberships := store.memberships.erasePlaylist id.key } := by
  unfold removePlaylist at h
  split at h
  · cases h
  · rename_i bare
    split at h
    · rename_i there
      cases h
      exact ⟨by simpa using bare, there, rfl⟩
    · cases h

theorem of_removeTracks {id : PersistentId} {tracks : List PersistentId} {actor : String}
    {count : Nat} (h : store.removeTracks id tracks actor = .ok (next, count)) :
    store.EditStep (.removeTracks id tracks actor) next := by
  obtain ⟨row?, row, h⟩ := bind_eq_ok h
  cases row? with
  | none => cases h
  | some playlist =>
    simp only at h
    split at h
    · rename_i same
      cases h
      exact .tracksKept row same
    · rename_i fewer
      cases h
      exact .tracksRemoved row fewer

theorem editStep_of_edit {change : Edit} (h : store.edit change = .ok next) :
    store.EditStep change next := by
  cases change with
  | saveTrack track actor =>
    cases h
    exact .trackSaved track actor
  | deleteTrack id actor =>
    obtain ⟨removed, remove, h⟩ := bind_eq_ok h
    unfold removeTrack at remove
    split at remove
    · rename_i there
      cases remove
      cases h
      exact .trackDeleted there
    · cases remove
  | savePlaylist playlist actor =>
    obtain ⟨existing, old, h⟩ := bind_eq_ok h
    obtain ⟨written, write, h⟩ := bind_eq_ok h
    cases h
    exact .playlistSaved old write
  | deletePlaylist id actor =>
    obtain ⟨removed, remove, h⟩ := bind_eq_ok h
    cases h
    exact .playlistDeleted remove
  | removeTracks id tracks actor =>
    cases result : store.removeTracks id tracks actor with
    | error failure =>
      rw [edit, result] at h
      cases h
    | ok pair =>
      rw [edit, result] at h
      cases h
      exact of_removeTracks result

end MusicLibrary.Store
