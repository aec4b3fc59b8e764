import MusicLibrary.Proofs.Sync.Frame

/-! What pruning leaves. Of the entries that it was to prune, an owner has no snapshot afterwards,
save for folders in which something lies; and these it could not prune at once again. -/

namespace MusicLibrary

theorem Store.mem_knownIds {store : Store} {kind : EntityKind} {owner : Option Int64}
    {key : String} :
    key ∈ store.knownIds kind owner ↔ store.snapshot? kind owner key ≠ none := by
  rw [knownIds, Table.knownIds, List.mem_map, snapshot?, Ne, Option.map_eq_none_iff]
  constructor
  · rintro ⟨snapshot, mem, rfl⟩
    obtain ⟨stored, own⟩ := List.mem_filter.1 mem
    obtain ⟨rfl, rfl⟩ := of_decide_eq_true own
    have found : store.snapshots.find? snapshot.key = some snapshot := Table.find?_of_mem stored
    rw [found]
    exact Option.some_ne_none _
  · intro known
    obtain ⟨snapshot, found⟩ := Option.ne_none_iff_exists'.1 known
    have key_eq : snapshot.key = ⟨kind, owner, key⟩ := Table.key_of_find? found
    refine ⟨snapshot, List.mem_filter.2 ⟨Table.mem_of_find? found, ?_⟩, ?_⟩
    · simp [key_eq]
    · rw [key_eq]

namespace Sync

variable {options : Options} {store : Store} {keys pending : List String} {key : String}

theorem mem_staleIds {kind : EntityKind} {seen : List String} :
    key ∈ staleIds options store kind seen ↔
      store.snapshot? kind options.owner key ≠ none ∧ key ∉ seen := by
  rw [staleIds, List.mem_filter, Store.mem_knownIds]
  simp

/-! Tracks. -/

/-- Of tracks that are pruned no snapshot of the owner is left; all others stay. -/
theorem snapshot?_pruneTracks (options : Options) (store : Store) (keys : List String)
    (kind : EntityKind) (owner : Option Int64) (key : String) :
    (pruneTracks options store keys).1.snapshot? kind owner key =
      if kind = .track ∧ owner = options.owner ∧ key ∈ keys then none
      else store.snapshot? kind owner key := by
  induction keys generalizing store with
  | nil => simp [pruneTracks]
  | cons head rest ih =>
    rw [← run_pruneTracks, List.map_cons, Store.run_cons, commit_pruneTrack, run_pruneTracks, ih,
      snapshot?_pruneTrack]
    by_cases own : kind = .track ∧ owner = options.owner
    · by_cases later : key ∈ rest <;> by_cases same : key = head <;> simp [own, later, same]
    · have other : ¬ ((⟨kind, owner, key⟩ : SnapshotKey) = ⟨.track, options.owner, head⟩) := by
        rintro same
        cases same
        exact own ⟨rfl, rfl⟩
      rw [if_neg other, if_neg fun h => own ⟨h.1, h.2.1⟩, if_neg fun h => own ⟨h.1, h.2.1⟩]

theorem snapshot?_playlist_pruneTracks (options : Options) (store : Store) (keys : List String)
    (owner : Option Int64) (key : String) :
    (pruneTracks options store keys).1.snapshot? .playlist owner key =
      store.snapshot? .playlist owner key := by
  rw [snapshot?_pruneTracks, if_neg]
  rintro ⟨kind, -⟩
  cases kind

/-! Playlists. -/

theorem snapshot?_commit_prunePlaylist (h : store.snapshot? .playlist options.owner key = none)
    (pruned : String) :
    (store.commit (.prunePlaylist options pruned)).snapshot? .playlist options.owner key =
      none := by
  cases step : prunePlaylist? options store pruned with
  | none =>
    rw [commit_prunePlaylist_blocked step]
    exact h
  | some result =>
    obtain ⟨next, id?⟩ := result
    rw [commit_prunePlaylist step, snapshot?_of_prunePlaylist step, h, ite_self]

/-- A snapshot that is not there does not come back by pruning. -/
theorem snapshot?_run_prunings {ts : List Transaction}
    (prunings : ∀ t ∈ ts, ∃ pruned, t = .prunePlaylist options pruned)
    (h : store.snapshot? .playlist options.owner key = none) :
    (store.run ts).snapshot? .playlist options.owner key = none := by
  apply Store.run_induction (P := fun store => store.snapshot? .playlist options.owner key = none)
  · intro t mem store absent
    obtain ⟨pruned, rfl⟩ := prunings t mem
    exact snapshot?_commit_prunePlaylist absent pruned
  · exact h

theorem snapshot?_pruneRound (h : store.snapshot? .playlist options.owner key = none)
    (keys : List String) :
    (pruneRound options store keys).store.snapshot? .playlist options.owner key = none := by
  rw [← run_pruneRound]
  refine snapshot?_run_prunings ?_ h
  intro t mem
  obtain ⟨pruned, _, rfl⟩ := List.mem_map.1 mem
  exact ⟨pruned, rfl⟩

theorem snapshot?_prunePlaylists (h : store.snapshot? .playlist options.owner key = none)
    (pending : List String) :
    (prunePlaylists options store pending).1.snapshot? .playlist options.owner key = none := by
  rw [← run_playlistPrunings]
  refine snapshot?_run_prunings ?_ h
  intro t mem
  obtain ⟨pruned, _, rfl⟩ := mem_playlistPrunings mem
  exact ⟨pruned, rfl⟩

theorem snapshot?_track_prunePlaylists (options : Options) (store : Store)
    (pending : List String) (owner : Option Int64) (key : String) :
    (prunePlaylists options store pending).1.snapshot? .track owner key =
      store.snapshot? .track owner key := by
  rw [← run_playlistPrunings]
  apply Store.run_induction
    (P := fun next => next.snapshot? .track owner key = store.snapshot? .track owner key)
  · intro t mem before same
    obtain ⟨pruned, _, rfl⟩ := mem_playlistPrunings mem
    have other : (Transaction.prunePlaylist options pruned).baseline? ≠ some ⟨.track, owner, key⟩ :=
      nofun
    exact (Store.snapshot?_commit_of_ne other).trans same
  · rfl

/-- Of a playlist that did not have to wait no snapshot is left. -/
theorem snapshot?_pruneRound_of_not_mem (mem : key ∈ keys)
    (pruned : key ∉ (pruneRound options store keys).blocked) :
    (pruneRound options store keys).store.snapshot? .playlist options.owner key = none := by
  induction keys generalizing store with
  | nil => cases mem
  | cons head rest ih =>
    unfold pruneRound at pruned ⊢
    cases step : prunePlaylist? options store head with
    | none =>
      rw [step] at pruned
      obtain ⟨other, later⟩ := not_or.1 (mt List.mem_cons.2 pruned)
      exact ih ((List.mem_cons.1 mem).resolve_left other) later
    | some result =>
      obtain ⟨next, id?⟩ := result
      rw [step] at pruned
      rcases List.mem_cons.1 mem with rfl | mem
      · apply snapshot?_pruneRound
        rw [snapshot?_of_prunePlaylist step, if_pos rfl]
      · exact ih mem pruned

/-- A round in which every playlist has to wait changes nothing. -/
theorem pruneRound_of_blocked (h : ∀ key ∈ keys, prunePlaylist? options store key = none) :
    pruneRound options store keys = ⟨store, [], keys⟩ := by
  induction keys with
  | nil => rfl
  | cons head rest ih =>
    rw [pruneRound, h head List.mem_cons_self]
    simp only [ih fun key mem => h key (List.mem_cons_of_mem _ mem)]

theorem length_blocked_le (options : Options) (store : Store) (keys : List String) :
    (pruneRound options store keys).blocked.length ≤ keys.length := by
  induction keys generalizing store with
  | nil => exact Nat.le_refl _
  | cons head rest ih =>
    unfold pruneRound
    cases step : prunePlaylist? options store head with
    | none => exact Nat.succ_le_succ (ih store)
    | some result => exact Nat.le_succ_of_le (ih result.1)

/-- A round gets no further only if every playlist has to wait. -/
theorem blocked_of_stuck (stuck : ¬ (pruneRound options store keys).blocked.length < keys.length) :
    ∀ key ∈ keys, prunePlaylist? options store key = none := by
  induction keys with
  | nil => simp
  | cons head rest ih =>
    unfold pruneRound at stuck
    cases step : prunePlaylist? options store head with
    | some result =>
      rw [step] at stuck
      exact absurd (Nat.lt_succ_of_le (length_blocked_le options result.1 rest)) stuck
    | none =>
      rw [step] at stuck
      intro key mem
      rcases List.mem_cons.1 mem with rfl | mem
      · exact step
      · refine ih ?_ key mem
        intro fewer
        exact stuck (Nat.succ_lt_succ fewer)

/-- Of every playlist that was to be pruned no snapshot is left, or it still cannot be pruned. -/
theorem blocked_prunePlaylists (mem : key ∈ pending) :
    let pruned := (prunePlaylists options store pending).1
    pruned.snapshot? .playlist options.owner key = none ∨
      prunePlaylist? options pruned key = none := by
  -- After a round the playlist is gone, or it waits for the next one.
  induction store, pending using prunePlaylists.induct options with
  | case1 store pending round fewer next ids whole ih =>
    rw [prunePlaylists, if_pos fewer]
    by_cases waits : key ∈ round.blocked
    · exact ih waits
    · left
      exact snapshot?_prunePlaylists (snapshot?_pruneRound_of_not_mem mem waits) _
  | case2 store pending round stuck =>
    have blocked := blocked_of_stuck stuck
    rw [prunePlaylists, if_neg stuck, pruneRound_of_blocked blocked]
    exact .inr (blocked key mem)

/-- Where every playlist has to wait, pruning changes nothing. -/
theorem prunePlaylists_of_blocked
    (h : ∀ key ∈ pending, prunePlaylist? options store key = none) :
    prunePlaylists options store pending = (store, []) := by
  rw [prunePlaylists, pruneRound_of_blocked h]
  exact if_neg (Nat.lt_irrefl _)

end Sync

end MusicLibrary
