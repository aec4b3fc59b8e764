import MusicLibrary.Proofs.Sync.Pruning

/-! What pruning tracks leaves, told from the store before it: the tracks to be pruned are gone,
from the library, from all playlists and from the snapshots of their owner, and all else is as it
was. -/

namespace MusicLibrary.Sync

/-- The keys of the rows that ids stand for. -/
def rowKeys (ids : List String) : List Key :=
  ids.filterMap fun id => (PersistentId.parse? id).map PersistentId.key

variable {options : Options} {store : Store} {pruned : String}

theorem rowKeys_cons (id : String) (rest : List String) :
    rowKeys (id :: rest) = rowKeys [id] ++ rowKeys rest := by
  simp only [rowKeys, List.filterMap_cons, List.filterMap_nil]
  split <;> rfl

@[simp] theorem rowKeys_of_illegible (parsed : PersistentId.parse? pruned = none) :
    rowKeys [pruned] = [] := by simp [rowKeys, parsed]

@[simp] theorem rowKeys_of_parsed {id : PersistentId}
    (parsed : PersistentId.parse? pruned = some id) : rowKeys [pruned] = [id.key] := by
  simp [rowKeys, parsed]

/-- One track that is pruned. -/
theorem pruneTrack_leaves (options : Options) (store : Store) (pruned : String) :
    let next := (pruneTrack options store pruned).1
    (∀ key, next.tracks.find? key =
        if key ∈ rowKeys [pruned] then none else store.tracks.find? key) ∧
      next.memberships.rows =
        store.memberships.rows.filter (fun m => decide (m.track ∉ rowKeys [pruned])) ∧
      next.tracks.size + (pruneTrack options store pruned).2.toList.length = store.tracks.size := by
  cases step : pruneTrack options store pruned with
  | mk next id? =>
    cases trackPruning_of_pruneTrack step with
    | illegible parsed =>
      simp only [rowKeys_of_illegible parsed]
      refine ⟨fun key => rfl, ?_, rfl⟩
      exact (List.filter_eq_self.2 (by simp)).symm
    | @absent id parsed absent =>
      simp only [rowKeys_of_parsed parsed, List.mem_singleton]
      refine ⟨fun key => Table.find?_erase _ _ _, rfl, ?_⟩
      have size := store.tracks.size_erase id.key
      rw [show store.tracks.contains id.key = false from absent] at size
      exact size
    | @removed id parsed there =>
      simp only [rowKeys_of_parsed parsed, List.mem_singleton]
      refine ⟨fun key => Table.find?_erase _ _ _, rfl, ?_⟩
      have size := store.tracks.size_erase id.key
      rw [show store.tracks.contains id.key = true from there] at size
      exact size

theorem find?_pruneTracks (options : Options) (store : Store) (ids : List String) (key : Key) :
    (pruneTracks options store ids).1.tracks.find? key =
      if key ∈ rowKeys ids then none else store.tracks.find? key := by
  induction ids generalizing store with
  | nil => rfl
  | cons head rest ih =>
    simp only [pruneTracks, ih, (pruneTrack_leaves options store head).1, rowKeys_cons head rest,
      List.mem_append]
    by_cases later : key ∈ rowKeys rest <;> simp [later]

theorem memberships_pruneTracks (options : Options) (store : Store) (ids : List String) :
    (pruneTracks options store ids).1.memberships.rows =
      store.memberships.rows.filter (fun m => decide (m.track ∉ rowKeys ids)) := by
  induction ids generalizing store with
  | nil => exact (List.filter_eq_self.2 (by simp [rowKeys])).symm
  | cons head rest ih =>
    simp only [pruneTracks, ih, (pruneTrack_leaves options store head).2.1, rowKeys_cons head rest,
      List.filter_filter, List.mem_append, not_or, Bool.decide_and, Bool.and_comm]

/-- As many tracks are told as rows were taken out. -/
theorem size_pruneTracks (options : Options) (store : Store) (ids : List String) :
    (pruneTracks options store ids).1.tracks.size + (pruneTracks options store ids).2.length =
      store.tracks.size := by
  induction ids generalizing store with
  | nil => rfl
  | cons head rest ih =>
    have first := (pruneTrack_leaves options store head).2.2
    have others := ih (pruneTrack options store head).1
    simp only [pruneTracks, List.length_append]
    omega

theorem playlists_pruneTracks (options : Options) (store : Store) (ids : List String) :
    (pruneTracks options store ids).1.playlists = store.playlists := by
  induction ids generalizing store with
  | nil => rfl
  | cons head rest ih => rw [pruneTracks, ih, Store.playlists_pruneTrack]

end MusicLibrary.Sync
