import MusicLibrary.Proofs.Sync.Footprint
import MusicLibrary.Proofs.Sync.Pruning

/-! Runs that have come to the same go on alike. Nothing that a stream does depends on the audit
trail, on the events so far or on the order in which ids were seen. -/

namespace MusicLibrary.Sync

open Store (SameTables)

variable {options : Options}

theorem EntityStats.record_comm (stats : EntityStats) (a b : Outcome) :
    (stats.record a).record b = (stats.record b).record a := by
  cases a <;> cases b <;> simp [record, Nat.add_right_comm]

namespace Progress

/-- Two runs have come to the same: the same tables and counters, and the same ids were seen. -/
structure Alike (p q : Progress) : Prop where
  store : SameTables p.store q.store
  stats : p.stats = q.stats
  seen : ∀ kind key, key ∈ p.seen kind ↔ key ∈ q.seen kind

variable {p q r last : Progress} {record x y : LibraryRecord}

theorem Alike.refl (p : Progress) : p.Alike p := ⟨.refl p.store, rfl, fun _ _ => Iff.rfl⟩

theorem Alike.symm (h : p.Alike q) : q.Alike p :=
  ⟨h.store.symm, h.stats.symm, fun kind key => (h.seen kind key).symm⟩

theorem Alike.trans (h : p.Alike q) (h' : q.Alike r) : p.Alike r :=
  ⟨h.store.trans h'.store, h.stats.trans h'.stats,
    fun kind key => (h.seen kind key).trans (h'.seen kind key)⟩

theorem Alike.note (h : p.Alike q) (record : LibraryRecord) {store store' : Store}
    (same : SameTables store store') (outcome : Outcome) :
    (p.note record store outcome).Alike (q.note record store' outcome) := by
  refine ⟨?_, ?_, ?_⟩
  · rw [store_note, store_note]
    exact same
  · cases record <;> simp only [Progress.note, h.stats]
  · intro kind key
    rw [mem_seen_note, mem_seen_note, h.seen]

/-- Runs that have come to the same take a record in alike. -/
theorem Alike.take (h : p.Alike q) (step : p.take options record = .ok r) :
    ∃ r', q.take options record = .ok r' ∧ r.Alike r' := by
  obtain ⟨store, outcome, placed, rfl⟩ := note_of_take step
  obtain ⟨store', placed', same⟩ := (alike_of_sameTables h.store record).of_ok placed
  exact ⟨_, take_of_placeRecord placed', h.note record same outcome⟩

theorem Alike.take_error {failure : Failure} (h : p.Alike q)
    (stops : p.take options record = .error failure) : q.take options record = .error failure := by
  rw [take_eq] at stops ⊢
  cases placed : placeRecord options p.store record with
  | ok result =>
    rw [placed] at stops
    cases stops
  | error other =>
    rw [placed] at stops
    cases stops
    rw [(alike_of_sameTables h.store record).of_error placed]
    rfl

theorem Alike.takeAll {records : List LibraryRecord} (h : p.Alike q)
    (all : takeAll options p records = .ok last) :
    ∃ last', Progress.takeAll options q records = .ok last' ∧ last.Alike last' := by
  induction records generalizing p q with
  | nil =>
    cases all
    exact ⟨q, rfl, h⟩
  | cons record rest ih =>
    obtain ⟨next, step, later⟩ := bind_eq_ok all
    obtain ⟨next', step', h'⟩ := h.take step
    obtain ⟨last', later', like⟩ := ih h' later
    exact ⟨last', (takeAll_cons step' rest).trans later', like⟩

end Progress

/-! Pruning. -/

section

variable (options) {a b : Store} (same : SameTables a b)
include same

theorem staleIds_congr {p q : Progress} (h : p.Alike q) (kind : EntityKind) :
    staleIds options a kind (p.seen kind) = staleIds options b kind (q.seen kind) := by
  unfold staleIds Store.knownIds
  rw [same.snapshots]
  refine List.filter_congr fun key _ => ?_
  rw [Bool.eq_iff_iff]
  simp [h.seen kind key]

theorem pruneTrack_congr (key : String) :
    SameTables (pruneTrack options a key).1 (pruneTrack options b key).1 ∧
      (pruneTrack options a key).2 = (pruneTrack options b key).2 := by
  obtain ⟨audit, rfl⟩ := same.exists_audit
  unfold pruneTrack
  cases PersistentId.parse? key with
  | none => exact ⟨⟨rfl, rfl, rfl, rfl⟩, rfl⟩
  | some id =>
    dsimp only
    have there : ({ a with audit } : Store).hasTrack id = a.hasTrack id := rfl
    rw [there]
    split
    · exact ⟨⟨rfl, rfl, rfl, rfl⟩, rfl⟩
    · exact ⟨⟨rfl, rfl, rfl, rfl⟩, rfl⟩

/-- A playlist that has to wait waits in both stores; one that is pruned is told in both alike. -/
theorem prunePlaylist?_congr (key : String) :
    (prunePlaylist? options a key = none ∧ prunePlaylist? options b key = none) ∨
      ∃ a' b' id?, prunePlaylist? options a key = some (a', id?) ∧
        prunePlaylist? options b key = some (b', id?) ∧ SameTables a' b' := by
  obtain ⟨audit, rfl⟩ := same.exists_audit
  unfold prunePlaylist?
  cases PersistentId.parse? key with
  | none => exact .inr ⟨_, _, _, rfl, rfl, rfl, rfl, rfl, rfl⟩
  | some id =>
    dsimp only
    have full : ({ a with audit } : Store).hasChildren id = a.hasChildren id := rfl
    unfold Store.removePlaylist
    rw [full]
    cases a.hasChildren id with
    | true => exact .inl ⟨rfl, rfl⟩
    | false =>
      dsimp only [Bool.false_eq_true, if_false]
      cases a.playlists.contains id.key with
      | true => exact .inr ⟨_, _, _, rfl, rfl, rfl, rfl, rfl, rfl⟩
      | false => exact .inr ⟨_, _, _, rfl, rfl, rfl, rfl, rfl, rfl⟩

theorem pruneTracks_congr (keys : List String) :
    SameTables (pruneTracks options a keys).1 (pruneTracks options b keys).1 ∧
      (pruneTracks options a keys).2 = (pruneTracks options b keys).2 := by
  induction keys generalizing a b with
  | nil => exact ⟨same, rfl⟩
  | cons key rest ih =>
    have first := pruneTrack_congr options same key
    have others := ih first.1
    simp only [pruneTracks]
    exact ⟨others.1, by rw [first.2, others.2]⟩

theorem pruneRound_congr (keys : List String) :
    let first := pruneRound options a keys
    let second := pruneRound options b keys
    SameTables first.store second.store ∧ first.removed = second.removed ∧
      first.blocked = second.blocked := by
  induction keys generalizing a b with
  | nil => exact ⟨same, rfl, rfl⟩
  | cons key rest ih =>
    unfold pruneRound
    rcases prunePlaylist?_congr options same key with
      ⟨blocked, blocked'⟩ | ⟨a', b', id?, step, step', same'⟩
    · obtain ⟨stores, removed, waiting⟩ := ih same
      rw [blocked, blocked']
      exact ⟨stores, removed, congrArg (key :: ·) waiting⟩
    · obtain ⟨stores, removed, waiting⟩ := ih same'
      rw [step, step']
      exact ⟨stores, congrArg (id?.toList ++ ·) removed, waiting⟩

theorem prunePlaylists_congr (pending : List String) :
    SameTables (prunePlaylists options a pending).1 (prunePlaylists options b pending).1 ∧
      (prunePlaylists options a pending).2 = (prunePlaylists options b pending).2 := by
  -- A round leaves the same playlists waiting in both stores, so the next rounds go alike too.
  induction a, pending using prunePlaylists.induct options generalizing b with
  | case1 a pending round fewer next ids whole =>
    rename_i ih
    obtain ⟨stores, removed, waiting⟩ := pruneRound_congr options same pending
    obtain ⟨stores', removed'⟩ := ih stores
    rw [prunePlaylists.eq_def options a, prunePlaylists.eq_def options b]
    dsimp only
    rw [if_pos fewer, if_pos (waiting ▸ fewer), ← waiting]
    exact ⟨stores', congrArg₂ (· ++ ·) removed removed'⟩
  | case2 a pending round =>
    rename_i stuck
    obtain ⟨stores, removed, waiting⟩ := pruneRound_congr options same pending
    rw [prunePlaylists.eq_def options a, prunePlaylists.eq_def options b]
    dsimp only
    rw [if_neg stuck, if_neg (waiting ▸ stuck)]
    exact ⟨stores, removed⟩

end

/-- Runs that have come to the same are pruned alike. -/
theorem Progress.Alike.prune {p q : Progress} (h : p.Alike q) :
    (p.prune options).Alike (q.prune options) := by
  have listedTracks := staleIds_congr options h.store h .track
  have tracks := pruneTracks_congr options h.store (staleIds options p.store .track p.seenTracks)
  have listedPlaylists := staleIds_congr options tracks.1 h .playlist
  have playlists := prunePlaylists_congr options tracks.1 (staleIds options
    (pruneTracks options p.store (staleIds options p.store .track p.seenTracks)).1 .playlist
    p.seenPlaylists)
  simp only [Progress.seen] at listedTracks listedPlaylists
  refine ⟨?_, ?_, fun kind key => ?_⟩
  · simp only [Progress.prune, ← listedTracks, ← listedPlaylists]
    exact playlists.1
  · simp only [Progress.prune, ← listedTracks, ← listedPlaylists, h.stats, tracks.2, playlists.2]
  · cases kind with
    | track => exact h.seen .track key
    | playlist => exact h.seen .playlist key

/-- Whatever comes next, runs that have come to the same end alike. -/
theorem Progress.Alike.resume {p q : Progress} (h : p.Alike q)
    (items : List (Except ε LibraryRecord)) :
    (resume options p items).failure = (resume options q items).failure ∧
      (resume options p items).progress.Alike (resume options q items).progress := by
  induction items generalizing p q with
  | nil => exact ⟨rfl, h.prune⟩
  | cons item rest ih =>
    cases item with
    | error fault =>
      refine ⟨rfl, h.store, ?_, fun kind key => ?_⟩
      · exact congrArg (fun stats : Stats => { stats with aborted := true }) h.stats
      · cases kind with
        | track => exact h.seen .track key
        | playlist => exact h.seen .playlist key
    | ok record =>
      rw [Sync.resume, Sync.resume]
      cases step : p.take options record with
      | error failure =>
        rw [h.take_error step]
        exact ⟨rfl, h⟩
      | ok next =>
        obtain ⟨next', step', h'⟩ := h.take step
        rw [step']
        exact ih h'

end MusicLibrary.Sync
