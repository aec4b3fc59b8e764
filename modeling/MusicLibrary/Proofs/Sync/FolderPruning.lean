import MusicLibrary.Proofs.Store.Below
import MusicLibrary.Proofs.Sync.Pruning

/-! What pruning playlists leaves, told from the store before it. Folders go in rounds, after what
lies in them; in the end exactly those playlists are gone that were to be pruned together with all
that lies below them, in whatever order it was tried. -/

namespace MusicLibrary.Sync

open Store (Above IsForest KeepsIds Grounded LiesBelow)

/-- The playlist is to be pruned, and so is all that lies below it. -/
def Prunable (playlists : Table PlaylistRow) (pending : List String) (id : PersistentId) : Prop :=
  id.hex ∈ pending ∧ ∀ row ∈ playlists.rows, LiesBelow playlists id row → row.id.hex ∈ pending

variable {playlists : Table PlaylistRow} {pending : List String} {id : PersistentId}

theorem Prunable.of_inside (h : Prunable playlists pending id) {child : PlaylistRow}
    (mem : child ∈ playlists.rows) (inside : child.parentId = some id) :
    Prunable playlists pending child.id :=
  ⟨h.2 child mem (.inside inside), fun row rowMem below => h.2 row rowMem (below.trans mem inside)⟩

/-- What is to be pruned may go once all that lies in it may go. -/
theorem prunable_of_children (own : id.hex ∈ pending)
    (children : ∀ child ∈ playlists.rows, child.parentId = some id →
      Prunable playlists pending child.id) : Prunable playlists pending id := by
  refine ⟨own, fun row mem below => ?_⟩
  obtain ⟨child, childMem, inside, rfl | further⟩ := below.first mem
  · exact (children row childMem inside).1
  · exact (children child childMem inside).2 row mem further

/-- What lies behind a part of the pruning. Only rows that may go are gone, each with its list of
tracks, and a snapshot goes only where the row is gone. -/
structure Thinned (options : Options) (pending : List String) (before after : Store) : Prop where
  rows : ∀ row ∈ after.playlists.rows, row ∈ before.playlists.rows
  gone : ∀ row ∈ before.playlists.rows, row ∉ after.playlists.rows →
    Prunable before.playlists pending row.id
  tracks : after.tracks = before.tracks
  memberships : after.memberships.rows = before.memberships.rows.filter fun m =>
    after.playlists.contains m.playlist || !before.playlists.contains m.playlist
  snapshots : ∀ kind owner key, after.snapshot? kind owner key = before.snapshot? kind owner key ∨
    kind = .playlist ∧ owner = options.owner ∧ after.snapshot? kind owner key = none ∧
      ∃ id : PersistentId, key = id.hex ∧ key ∈ pending ∧ after.playlists.find? id.key = none

variable {options : Options} {before store next after : Store}

theorem Thinned.refl (options : Options) (pending : List String) (store : Store) :
    Thinned options pending store store where
  rows _ mem := mem
  gone _ mem absent := absurd mem absent
  tracks := rfl
  memberships := (List.filter_eq_self.2 fun _ _ => Bool.or_not_self _).symm
  snapshots _ _ _ := .inl rfl

theorem Thinned.contains (h : Thinned options pending before store) {key : Key}
    (there : store.playlists.contains key = true) : before.playlists.contains key = true := by
  obtain ⟨row, found⟩ := Option.isSome_iff_exists.1 there
  have mem := h.rows row (Table.mem_of_find? found)
  have same : row.id.key = key := Table.key_of_find? found
  rw [Table.contains, ← same]
  exact Option.isSome_iff_exists.2 ⟨row, Table.find?_of_mem mem⟩

/-- A snapshot that goes along with its row. -/
theorem Thinned.forget (h : Thinned options pending before store) (own : id.hex ∈ pending)
    (rows : ∀ key, next.playlists.find? key = none ∨
      next.playlists.find? key = store.playlists.find? key)
    (absent : next.playlists.find? id.key = none)
    (snapshots : ∀ kind owner key, next.snapshot? kind owner key =
      if (⟨kind, owner, key⟩ : SnapshotKey) = ⟨.playlist, options.owner, id.hex⟩ then none
      else store.snapshot? kind owner key) (kind : EntityKind) (owner : Option Int64)
    (key : String) :
    next.snapshot? kind owner key = before.snapshot? kind owner key ∨
      kind = .playlist ∧ owner = options.owner ∧ next.snapshot? kind owner key = none ∧
        ∃ id : PersistentId, key = id.hex ∧ key ∈ pending ∧
          next.playlists.find? id.key = none := by
  rw [snapshots]
  split
  · rename_i same
    cases same
    exact .inr ⟨rfl, rfl, rfl, id, rfl, own, absent⟩
  · rcases h.snapshots kind owner key with same | ⟨rfl, rfl, none, other, rfl, mem, gone⟩
    · exact .inl same
    · refine .inr ⟨rfl, rfl, none, other, rfl, mem, ?_⟩
      rcases rows other.key with absent | same
      · exact absent
      · exact same.trans gone

theorem Thinned.prune (kept : KeepsIds before.playlists) (own : id.hex ∈ pending)
    (low : id ≠ .highBit) (h : Thinned options pending before store) :
    Thinned options pending before (store.commit (.prunePlaylist options id.hex)) := by
  cases step : prunePlaylist? options store id.hex with
  | none =>
    rw [commit_prunePlaylist_blocked step]
    exact h
  | some result =>
    obtain ⟨next, id?⟩ := result
    have snapshots := snapshot?_of_prunePlaylist step
    rw [commit_prunePlaylist step]
    cases playlistPruning_of_prunePlaylist step with
    | illegible parsed =>
      rw [PersistentId.parse?_hex] at parsed
      cases parsed
    | absent parsed absent =>
      cases (PersistentId.parse?_hex id).symm.trans parsed
      exact ⟨h.rows, h.gone, h.tracks, h.memberships,
        h.forget own (fun key => .inr rfl) absent snapshots⟩
    | removed parsed remove =>
      cases (PersistentId.parse?_hex id).symm.trans parsed
      obtain ⟨bare, there, rfl⟩ := Store.of_removePlaylist remove
      have bare := Store.ne_of_hasChildren_eq_false bare
      refine ⟨?_, ?_, h.tracks, ?_, h.forget own (fun key => ?_) ?_ snapshots⟩
      · intro row mem
        exact h.rows row (Table.mem_erase.1 mem).1
      · intro row mem absent
        by_cases still : row ∈ store.playlists.rows
        · -- The row is the one that was just taken out, so all that lay in it had gone before.
          have key : row.id.key = id.key := by
            by_contra other
            exact absent (Table.mem_erase.2 ⟨still, other⟩)
          obtain rfl := PersistentId.eq_of_key_eq (kept row mem).1 low key
          refine prunable_of_children own fun child childMem inside => h.gone child childMem ?_
          intro there
          refine bare child there ?_
          rw [inside]
          rfl
        · exact h.gone row mem still
      · change (store.memberships.rows.filter (·.playlist ≠ id.key)) ++ [] = _
        rw [List.append_nil, h.memberships, List.filter_filter]
        refine List.filter_congr fun m _ => ?_
        simp only [Store.record, Store.eraseSnapshot, Table.contains, Table.find?_erase]
        by_cases same : m.playlist = id.key
        · have once := h.contains there
          rw [Table.contains] at once
          simp [same, once]
        · simp [same]
      · have found := Table.find?_erase store.playlists id.key key
        by_cases same : key = id.key
        · exact .inl (found.trans (if_pos same))
        · exact .inr (found.trans (if_neg same))
      · exact (Table.find?_erase store.playlists id.key id.key).trans (if_pos rfl)

/-- The texts are the digits of ids that a store keeps. -/
def Legible (pending : List String) : Prop :=
  ∀ key ∈ pending, ∃ id : PersistentId, id ≠ .highBit ∧ key = id.hex

theorem thinned_prunePlaylists (kept : KeepsIds before.playlists) (legible : Legible pending) :
    Thinned options pending before (prunePlaylists options before pending).1 := by
  rw [← run_playlistPrunings]
  apply Store.run_induction (P := Thinned options pending before)
  · intro t mem store thinned
    obtain ⟨key, own, rfl⟩ := mem_playlistPrunings mem
    obtain ⟨id, low, rfl⟩ := legible key own
    exact thinned.prune kept own low
  · exact .refl options pending before

/-- Only a folder in which something lies has to wait. -/
theorem exists_child_of_blocked (kept : KeepsIds store.playlists) (low : id ≠ .highBit)
    (blocked : prunePlaylist? options store id.hex = none) :
    ∃ child ∈ store.playlists.rows, child.parentId = some id := by
  have full : store.hasChildren id = true := by
    by_contra bare
    rw [prunePlaylist?, PersistentId.parse?_hex] at blocked
    cases there : store.playlists.contains id.key <;>
      simp [Store.removePlaylist, bare, there] at blocked
  obtain ⟨child, mem, inside⟩ := List.any_eq_true.1 full
  obtain ⟨parent, place, key⟩ := Option.map_eq_some_iff.1 (of_decide_eq_true inside)
  refine ⟨child, mem, ?_⟩
  rw [place, PersistentId.eq_of_key_eq _ low key]
  rintro rfl
  exact (kept child mem).2 place

/-- The store is one in which pruning can do its work: its playlists form a forest, and what is to
be pruned are ids of which the owner has a snapshot. -/
structure CanPrune (options : Options) (store : Store) (pending : List String) : Prop where
  forest : IsForest store.playlists
  kept : KeepsIds store.playlists
  legible : Legible pending
  known : ∀ key ∈ pending, store.snapshot? .playlist options.owner key ≠ none

variable (can : CanPrune options before pending)
include can

theorem CanPrune.thinned :
    Thinned options pending before (prunePlaylists options before pending).1 :=
  thinned_prunePlaylists can.kept can.legible

/-- The row of what may go does not stay. -/
theorem CanPrune.not_mem_of_prunable : ∀ row ∈ before.playlists.rows,
    Prunable before.playlists pending row.id →
      row ∉ (prunePlaylists options before pending).1.playlists.rows := by
  have thinned := can.thinned
  have grounded : Grounded before.playlists := fun row mem =>
    ((can.forest row mem).2).imp fun _ way => way.1
  -- From the innermost playlists outwards: one that is left was blocked by a child that is left.
  refine grounded.induction fun row mem ih prunable stays => ?_
  rcases blocked_prunePlaylists prunable.1 with forgotten | blocked
  · rcases thinned.snapshots .playlist options.owner row.id.hex with
      same | ⟨_, _, _, id, hex, _, gone⟩
    · exact can.known _ prunable.1 (same.symm.trans forgotten)
    · obtain rfl := PersistentId.hex_injective hex
      have found := Table.find?_of_mem stays
      cases found.symm.trans gone
  · have kept : KeepsIds (prunePlaylists options before pending).1.playlists := fun other there =>
      can.kept other (thinned.rows other there)
    obtain ⟨child, there, inside⟩ := exists_child_of_blocked kept (can.kept row mem).1 blocked
    have childMem := thinned.rows child there
    exact ih child childMem inside (prunable.of_inside childMem inside) there

/-- The rows that are left are those that may not go. -/
theorem CanPrune.mem_rows_iff {row : PlaylistRow} :
    row ∈ (prunePlaylists options before pending).1.playlists.rows ↔
      row ∈ before.playlists.rows ∧ ¬ Prunable before.playlists pending row.id := by
  constructor
  · intro stays
    have mem := can.thinned.rows row stays
    exact ⟨mem, fun prunable => can.not_mem_of_prunable row mem prunable stays⟩
  · rintro ⟨mem, needed⟩
    by_contra gone
    exact needed (can.thinned.gone row mem gone)

theorem CanPrune.find?_of_prunable (prunable : Prunable before.playlists pending id) :
    (prunePlaylists options before pending).1.playlists.find? id.key = none := by
  obtain ⟨named, low, hex⟩ := can.legible _ prunable.1
  obtain rfl := PersistentId.hex_injective hex
  rw [Option.eq_none_iff_forall_ne_some]
  intro row found
  have there := Table.mem_of_find? found
  have mem := can.thinned.rows row there
  have same : row.id = id :=
    PersistentId.eq_of_key_eq (can.kept row mem).1 low (Table.key_of_find? found)
  exact can.not_mem_of_prunable row mem (same ▸ prunable) there

theorem CanPrune.find?_of_not_prunable (low : id ≠ .highBit)
    (needed : ¬ Prunable before.playlists pending id) :
    (prunePlaylists options before pending).1.playlists.find? id.key =
      before.playlists.find? id.key := by
  cases found : before.playlists.find? id.key with
  | none =>
    rw [Option.eq_none_iff_forall_ne_some]
    intro row stays
    have mem := Table.find?_of_mem (can.thinned.rows row (Table.mem_of_find? stays))
    rw [Table.key_of_find? stays, found] at mem
    cases mem
  | some row =>
    have same : row.id = id := Store.eq_of_find? can.kept low found
    have stays := can.mem_rows_iff.2 ⟨Table.mem_of_find? found, same ▸ needed⟩
    exact (Table.key_of_find? found) ▸ Table.find?_of_mem stays

/-- Of what may go no snapshot of the owner is left. -/
theorem CanPrune.snapshot?_of_prunable (prunable : Prunable before.playlists pending id) :
    (prunePlaylists options before pending).1.snapshot? .playlist options.owner id.hex = none := by
  obtain ⟨named, low, hex⟩ := can.legible _ prunable.1
  obtain rfl := PersistentId.hex_injective hex
  refine (blocked_prunePlaylists prunable.1).resolve_right fun blocked => ?_
  have kept : KeepsIds (prunePlaylists options before pending).1.playlists := fun other there =>
    can.kept other (can.thinned.rows other there)
  obtain ⟨child, there, inside⟩ := exists_child_of_blocked kept low blocked
  have childMem := can.thinned.rows child there
  exact can.not_mem_of_prunable child childMem (prunable.of_inside childMem inside) there

/-- All other snapshots are left. -/
theorem CanPrune.snapshot?_of_not_prunable {kind : EntityKind} {owner : Option Int64} {key : String}
    (needed : kind = .playlist → owner = options.owner → ∀ id : PersistentId, key = id.hex →
      ¬ Prunable before.playlists pending id) :
    (prunePlaylists options before pending).1.snapshot? kind owner key =
      before.snapshot? kind owner key := by
  have thinned := can.thinned
  rcases thinned.snapshots kind owner key with same | ⟨rfl, rfl, _, id, rfl, own, gone⟩
  · exact same
  · refine absurd ⟨own, fun row mem below => ?_⟩ (needed rfl rfl id rfl)
    -- Where something lies below it the folder was there, and now that it is gone it could go.
    obtain ⟨folder, found⟩ := can.forest.find?_of_liesBelow mem below
    obtain ⟨named, low, hex⟩ := can.legible _ own
    obtain rfl := PersistentId.hex_injective hex
    have same : folder.id = id := Store.eq_of_find? can.kept low found
    have absent : folder ∉ (prunePlaylists options before pending).1.playlists.rows := by
      intro there
      have still := Table.find?_of_mem there
      rw [show Keyed.key folder = id.key from congrArg PersistentId.key same, gone] at still
      cases still
    have prunable := thinned.gone folder (Table.mem_of_find? found) absent
    rw [same] at prunable
    exact prunable.2 row mem below

omit can

/-! As many playlists are told as rows were taken out. -/

theorem size_of_prunePlaylist {key : String} {id? : Option PersistentId}
    (h : prunePlaylist? options store key = some (next, id?)) :
    next.playlists.size + id?.toList.length = store.playlists.size := by
  cases playlistPruning_of_prunePlaylist h with
  | illegible parsed => rfl
  | absent parsed absent => rfl
  | @removed id _ parsed remove =>
    obtain ⟨_, there, rfl⟩ := Store.of_removePlaylist remove
    have size := store.playlists.size_erase id.key
    rw [there] at size
    exact size

theorem size_pruneRound (options : Options) (store : Store) (keys : List String) :
    (pruneRound options store keys).store.playlists.size +
      (pruneRound options store keys).removed.length = store.playlists.size := by
  induction keys generalizing store with
  | nil => rfl
  | cons key rest ih =>
    unfold pruneRound
    cases step : prunePlaylist? options store key with
    | none => exact ih store
    | some result =>
      have first := size_of_prunePlaylist step
      have others := ih result.1
      simp only [List.length_append]
      omega

theorem size_prunePlaylists (options : Options) (store : Store) (pending : List String) :
    (prunePlaylists options store pending).1.playlists.size +
      (prunePlaylists options store pending).2.length = store.playlists.size := by
  induction store, pending using prunePlaylists.induct options with
  | case1 store pending round fewer next ids whole ih =>
    have first : round.store.playlists.size + round.removed.length = store.playlists.size :=
      size_pruneRound options store pending
    rw [prunePlaylists, if_pos fewer]
    change (prunePlaylists options round.store round.blocked).1.playlists.size +
      (round.removed ++ (prunePlaylists options round.store round.blocked).2).length = _
    rw [List.length_append]
    omega
  | case2 store pending round stuck =>
    rw [prunePlaylists, if_neg stuck]
    exact size_pruneRound options store pending

end MusicLibrary.Sync
