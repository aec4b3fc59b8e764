import MusicLibrary.Proofs.Merge.ThreeWay
import MusicLibrary.Proofs.Store.ListAct
import MusicLibrary.Proofs.Store.StoredRows
import MusicLibrary.Proofs.Sync.Pruning
import MusicLibrary.Proofs.Sync.SnapshotRecords

/-! The table of places refines the map from playlists to lists. Places are kept of plain playlists
only, and the list that is read off them is what has been done to it, act by act. -/

namespace MusicLibrary

open PersistentId (highBit)

theorem Memberships.mem_replace {memberships : Memberships} {playlist : Key} {tracks : List Key}
    {m : Membership} (mem : m ∈ (memberships.replace playlist tracks).rows) :
    (m ∈ memberships.rows ∧ m.playlist ≠ playlist) ∨ (m.playlist = playlist ∧ tracks ≠ []) := by
  rcases List.mem_append.1 mem with mem | mem
  · obtain ⟨there, other⟩ := List.mem_filter.1 mem
    exact .inl ⟨there, of_decide_eq_true other⟩
  · refine .inr ⟨(Memberships.of_mem_placesFrom mem).1, ?_⟩
    rintro rfl
    cases mem

namespace Store

/-- Only stored playlists that are neither folders nor smart have places. -/
def ListsArePlain (store : Store) : Prop :=
  ∀ m ∈ store.memberships.rows, ∃ row, store.playlists.find? m.playlist = some row ∧
    row.folder = false ∧ row.rules = .absent

variable {store next : Store} {act : ListAct}

theorem exists_membership_of_mem_trackIds {id track : PersistentId}
    (listed : track ∈ store.trackIds id) :
    ∃ m ∈ store.memberships.rows, m.playlist = id.key := by
  obtain ⟨key, mem, -⟩ := List.mem_map.1 listed
  obtain ⟨m, among, -⟩ := List.mem_map.1 mem
  obtain ⟨there, own⟩ := List.mem_filter.1 among
  exact ⟨m, there, of_decide_eq_true own⟩

/-- Only a plain playlist is stored with tracks. -/
theorem plain_of_storedTrackIds {playlist : Playlist} (some : playlist.storedTrackIds ≠ []) :
    playlist.folder = false ∧ playlist.smart = none := by
  have stores : playlist.storesTracks = true := by
    by_contra none
    exact some (if_neg none)
  simpa [Playlist.storesTracks] using stores

theorem ListStep.listsArePlain (step : store.ListStep act next) (h : store.ListsArePlain) :
    next.ListsArePlain := by
  intro m mem
  cases step with
  | kept playlists memberships | absent _ playlists memberships
  | nothingTaken _ playlists memberships =>
    rw [memberships] at mem
    rw [playlists]
    exact h m mem
  | @written _ playlist playlists memberships =>
    rw [memberships] at mem
    rw [playlists, Table.find?_put]
    have key : Keyed.key (PlaylistRow.ofPlaylist playlist) = playlist.id.key :=
      PersistentId.key_stored playlist.id
    rw [key]
    rcases Memberships.mem_replace mem with ⟨there, other⟩ | ⟨own, listed⟩
    · rw [if_neg other]
      exact h m there
    · have some : playlist.storedTrackIds ≠ [] := by
        intro none
        exact listed (by rw [none, List.map_nil])
      obtain ⟨folder, smart⟩ := plain_of_storedTrackIds some
      rw [if_pos own]
      refine ⟨_, rfl, folder, ?_⟩
      rw [PlaylistRow.ofPlaylist, smart]
      rfl
  | dropped playlists memberships =>
    rw [memberships] at mem
    rw [playlists, Table.find?_erase]
    rcases Memberships.mem_replace mem with ⟨there, other⟩ | ⟨-, nothing⟩
    · rw [if_neg other]
      exact h m there
    · exact absurd rfl nothing
  | forgotten playlists memberships =>
    rw [memberships] at mem
    rw [playlists]
    exact h m (List.mem_filter.1 mem).1
  | @taken _ id tracks playlists memberships =>
    rw [memberships] at mem
    rw [playlists]
    rcases Memberships.mem_replace mem with ⟨there, -⟩ | ⟨own, listed⟩
    · exact h m there
    · -- A list of which something is left had a place before.
      have some : (store.trackIds id).filter (· ∉ tracks) ≠ [] := by
        intro none
        exact listed (by rw [none, List.map_nil])
      obtain ⟨track, left⟩ := List.exists_mem_of_ne_nil _ some
      obtain ⟨other, there, same⟩ :=
        exists_membership_of_mem_trackIds (List.mem_filter.1 left).1
      rw [own, ← same]
      exact h other there

/-! Lists of tracks. -/

/-- No list has the one id that is not kept. -/
theorem IsStored.highBit_not_mem (stored : store.IsStored) (id : PersistentId) :
    highBit ∉ store.trackIds id := by
  intro listed
  obtain ⟨key, mem, same⟩ := List.mem_map.1 listed
  obtain ⟨m, among, rfl⟩ := List.mem_map.1 mem
  obtain ⟨track, eq⟩ := stored.tracks m (List.mem_filter.1 among).1
  rw [eq] at same
  exact PersistentId.stored_ne_highBit track same

theorem trackIds_of_replace {target : PersistentId} (ids : List PersistentId)
    (memberships : next.memberships =
      store.memberships.replace target.key (ids.map PersistentId.key))
    (kept : highBit ∉ ids) (own : target ≠ highBit) {id : PersistentId} (low : id ≠ highBit) :
    next.trackIds id = Function.update store.trackIds target ids id := by
  rw [trackIds, memberships, Memberships.tracks_replace]
  by_cases same : id = target
  · subst same
    rw [if_pos rfl, Function.update_self, List.map_map]
    exact PersistentId.list_map_stored_eq_iff.2 kept
  · rw [if_neg fun key => same (PersistentId.eq_of_key_eq low own key),
      Function.update_of_ne same]
    rfl

theorem trackIds_of_eraseTrack (stored : store.IsStored) {track : PersistentId}
    (memberships : next.memberships = store.memberships.eraseTrack track.key)
    (own : track ≠ highBit) (id : PersistentId) :
    next.trackIds id = (store.trackIds id).filter (· ≠ track) := by
  rw [trackIds, memberships, Memberships.tracks_eraseTrack, trackIds, List.filter_map]
  congr 1
  refine List.filter_congr fun key mem => ?_
  obtain ⟨m, among, rfl⟩ := List.mem_map.1 mem
  obtain ⟨listed, eq⟩ := stored.tracks m (List.mem_filter.1 among).1
  rw [eq, Function.comp_apply, decide_eq_decide, not_iff_not]
  constructor
  · intro key
    rw [key]
    exact PersistentId.stored_eq own
  · rintro rfl
    exact (PersistentId.key_stored listed).symm

theorem storedTrackIds_eq (playlist : Playlist) : playlist.storedTrackIds =
    if playlist.folder ∨ playlist.isSmart then [] else playlist.trackIds := by
  cases folder : playlist.folder <;> cases smart : playlist.smart <;>
    simp [Playlist.storedTrackIds, Playlist.storesTracks, Playlist.isSmart, folder, smart]

/-- The list of a playlist behind a transaction is what was done to it. -/
theorem ListStep.trackIds_eq (step : store.ListStep act next) (stored : store.IsStored)
    (plain : store.ListsArePlain) (kept : highBit ∉ act.ids) {id : PersistentId}
    (low : id ≠ highBit) : next.trackIds id = act.apply store.trackIds id := by
  cases step with
  | kept playlists memberships => rw [trackIds, memberships, ListAct.apply, trackIds]
  | @written _ playlist playlists memberships =>
    obtain ⟨own, others⟩ := List.ne_and_not_mem_of_not_mem_cons kept
    rw [ListAct.apply, ← storedTrackIds_eq]
    refine trackIds_of_replace _ memberships ?_ (Ne.symm own) low
    rw [storedTrackIds_eq]
    split
    · exact List.not_mem_nil
    · exact others
  | dropped playlists memberships =>
    have own := List.ne_and_not_mem_of_not_mem_cons kept
    exact trackIds_of_replace [] memberships List.not_mem_nil (Ne.symm own.1) low
  | @absent _ target absent playlists memberships =>
    have same : next.trackIds id = store.trackIds id := by rw [trackIds, memberships, trackIds]
    rw [same, ListAct.apply]
    by_cases own : id = target
    · subst own
      rw [Function.update_self, List.eq_nil_iff_forall_not_mem]
      intro track listed
      obtain ⟨m, there, key⟩ := exists_membership_of_mem_trackIds listed
      obtain ⟨row, found, -⟩ := plain m there
      rw [key, absent] at found
      cases found
    · rw [Function.update_of_ne own]
  | forgotten playlists memberships =>
    have own := List.ne_and_not_mem_of_not_mem_cons kept
    exact trackIds_of_eraseTrack stored memberships (Ne.symm own.1) id
  | taken playlists memberships =>
    have own := List.ne_and_not_mem_of_not_mem_cons kept
    refine trackIds_of_replace _ memberships ?_ (Ne.symm own.1) low
    exact fun mem => stored.highBit_not_mem _ (List.mem_filter.1 mem).1
  | @nothingTaken _ target tracks whole playlists memberships =>
    have same : next.trackIds id = store.trackIds id := by rw [trackIds, memberships, trackIds]
    rw [same, ListAct.apply, whole, Function.update_eq_self]

end Store

end MusicLibrary
