import MusicLibrary.Proofs.Store.EditSteps

/-! The exits of pruning one entry, one constructor each, with the store behind it and the id that
is told. -/

namespace MusicLibrary.Sync

/-- The exits of `pruneTrack`. -/
inductive TrackPruning (options : Options) (store : Store) (key : String) :
    Store → Option PersistentId → Prop
  | illegible (parsed : PersistentId.parse? key = none) :
    TrackPruning options store key (store.eraseSnapshot .track options.owner key) none
  | absent {id} (parsed : PersistentId.parse? key = some id) (absent : store.hasTrack id = false) :
    TrackPruning options store key
      ((store.eraseSnapshot .track options.owner key).eraseTrack id) none
  | removed {id} (parsed : PersistentId.parse? key = some id) (there : store.hasTrack id = true) :
    TrackPruning options store key
      (((store.eraseSnapshot .track options.owner key).eraseTrack id).record options.actor
        "prune_track" .trackDeleted key none none) (some id)

/-- The exits of `prunePlaylist?`, unless something lies in the playlist. -/
inductive PlaylistPruning (options : Options) (store : Store) (key : String) :
    Store → Option PersistentId → Prop
  | illegible (parsed : PersistentId.parse? key = none) :
    PlaylistPruning options store key (store.eraseSnapshot .playlist options.owner key) none
  | absent {id} (parsed : PersistentId.parse? key = some id)
    (absent : store.playlists.find? id.key = none) :
    PlaylistPruning options store key (store.eraseSnapshot .playlist options.owner key) none
  | removed {id removed} (parsed : PersistentId.parse? key = some id)
    (remove : store.removePlaylist id = .ok removed) :
    PlaylistPruning options store key
      ((removed.record options.actor "prune_playlist" .playlistDeleted key none none).eraseSnapshot
        .playlist options.owner key) (some id)

variable {options : Options} {store next : Store} {key : String} {id? : Option PersistentId}

theorem trackPruning_of_pruneTrack (h : pruneTrack options store key = (next, id?)) :
    TrackPruning options store key next id? := by
  unfold pruneTrack at h
  split at h
  · rename_i parsed
    cases h
    exact .illegible parsed
  · rename_i id parsed
    simp only at h
    split at h
    · rename_i there
      cases h
      exact .removed parsed there
    · rename_i absent
      cases h
      exact .absent parsed (Bool.eq_false_iff.2 absent)

theorem playlistPruning_of_prunePlaylist
    (h : prunePlaylist? options store key = some (next, id?)) :
    PlaylistPruning options store key next id? := by
  unfold prunePlaylist? at h
  split at h
  · rename_i parsed
    cases h
    exact .illegible parsed
  · rename_i id parsed
    split at h
    · cases h
    · rename_i failure other failed
      cases h
      refine .absent parsed ?_
      unfold Store.removePlaylist at failed
      split at failed
      · cases failed
        exact absurd rfl (other _)
      · split at failed
        · cases failed
        · rename_i missing
          simpa [Table.contains] using missing
    · rename_i removed remove
      cases h
      exact .removed parsed remove

end MusicLibrary.Sync
