import MusicLibrary.Proofs.Store.MembershipChange
import MusicLibrary.Proofs.Store.PlaylistChange

/-! What comes back from a store. Ids and kinds are stored as codes. What has come back from its
code once comes back the same from then on; so a playlist that was read is written without a
change. -/

namespace MusicLibrary

namespace Playlist

/-- A playlist as it comes back from a store, its rules aside. -/
def asStored (playlist : Playlist) : Playlist :=
  { playlist with
    id := playlist.id.stored
    parentId := playlist.parentId.map PersistentId.stored
    kind := .ofCode playlist.kind.code
    geniusTrackId := playlist.geniusTrackId.map PersistentId.stored
    trackIds := playlist.trackIds.map PersistentId.stored }

end Playlist

namespace Store

/-- All rows of playlists and all lists of tracks are what comes back from something written. -/
structure IsStored (store : Store) : Prop where
  rows : ∀ row ∈ store.playlists.rows, ∃ playlist, row = .ofPlaylist playlist
  tracks : ∀ m ∈ store.memberships.rows, ∃ id : PersistentId, m.track = id.key

variable {store next : Store}

theorem isStored_commit (h : store.IsStored) (t : Transaction) : (store.commit t).IsStored := by
  refine ⟨?_, ?_⟩
  · have put (playlist : Playlist) :
        ∀ row ∈ (store.playlists.put (.ofPlaylist playlist)).rows, ∃ p, row = .ofPlaylist p := by
      intro row mem
      rcases Table.mem_put.1 mem with rfl | ⟨mem, _⟩
      · exact ⟨playlist, rfl⟩
      · exact h.rows row mem
    have change := store.playlistChange_commit t
    generalize (store.commit t).playlists = rows at change ⊢
    cases change with
    | kept whole => exact h.rows
    | written whole placed => exact put _
    | merged whole placed bring row id folder parent => exact put _
    | removed whole bare =>
      intro row mem
      exact h.rows row (Table.mem_erase.1 mem).1
  · have change := store.membershipChange_commit t
    generalize (store.commit t).memberships = memberships at change ⊢
    cases change with
    | kept => exact h.tracks
    | replaced id trackIds =>
      intro m mem
      rcases List.mem_append.1 mem with mem | mem
      · exact h.tracks m (List.mem_filter.1 mem).1
      · have listed := List.mem_map_of_mem (f := Membership.track) mem
        rw [Memberships.map_track_placesFrom] at listed
        obtain ⟨track, _, same⟩ := List.mem_map.1 listed
        exact ⟨track, same.symm⟩
    | erased id =>
      intro m mem
      exact h.tracks m (List.mem_filter.1 mem).1

/-- All stores that calls can reach hold what comes back from something written. -/
theorem isStored_callAll (calls : List Call) : (Store.empty.callAll calls).IsStored := by
  rw [← run_history]
  apply run_induction
  · intro t _ store h
    exact isStored_commit h t
  · refine ⟨?_, ?_⟩
    · intro row mem
      cases mem
    · intro m mem
      cases mem

/-- A playlist that was read comes back as it is. -/
theorem asStored_of_playlist? (h : store.IsStored) {id : PersistentId} {stored : Playlist}
    (read : store.playlist? id = .ok (some stored)) : stored.asStored = stored := by
  obtain ⟨row, found, read⟩ := playlist?_eq_some.1 read
  obtain ⟨smart, _, rfl⟩ := Option.map_eq_some_iff.1 read
  obtain ⟨playlist, rfl⟩ := h.rows row (Table.mem_of_find? found)
  have listed : (store.trackIds id).map PersistentId.stored = store.trackIds id := by
    rw [trackIds, List.map_map]
    apply List.map_congr_left
    intro key mem
    obtain ⟨m, among, rfl⟩ := List.mem_map.1 mem
    obtain ⟨track, same⟩ := h.tracks m (List.mem_filter.1 among).1
    rw [same]
    exact PersistentId.stored_stored track
  simp only [Playlist.asStored, PlaylistRow.ofPlaylist, PersistentId.stored_stored,
    PersistentId.map_stored_stored, PlaylistKind.code_ofCode, listed]

theorem trackIds_of_writePlaylist {playlist : Playlist} {id : PersistentId}
    (write : store.writePlaylist playlist = .ok next) (key : playlist.id.key = id.key) :
    next.trackIds id = playlist.storedTrackIds.map PersistentId.stored := by
  obtain ⟨_, rfl⟩ := of_writePlaylist write
  rw [trackIds, key, Memberships.tracks_replace, if_pos rfl, List.map_map]
  rfl

/-- A plain playlist that is written is read as its codes tell. -/
theorem playlist?_of_writePlaylist {playlist : Playlist} {id : PersistentId}
    (write : store.writePlaylist playlist = .ok next) (plain : playlist.smart = none)
    (listed : playlist.storedTrackIds = playlist.trackIds) (key : playlist.id.key = id.key) :
    next.playlist? id = .ok (some playlist.asStored) := by
  refine playlist?_eq_some.2 ⟨_, find?_of_writePlaylist write key, ?_⟩
  rw [PlaylistRow.playlist?, trackIds_of_writePlaylist write key, listed, PlaylistRow.ofPlaylist,
    plain]
  simp only [Playlist.asStored, plain]
  rfl

end Store

end MusicLibrary
