import Mathlib.Data.List.Basic
import MusicLibrary.Proofs.Sync.Pruning
import MusicLibrary.Proofs.Sync.Settled

/-! A second pass. After a stream has come to its end, every record in it is settled and nothing is
left to prune; so the same records once more change nothing, and nothing is told of them. -/

namespace MusicLibrary.Sync

variable {options : Options} {store next : Store} {outcome : Outcome} {record : LibraryRecord}
  {records : List LibraryRecord} {progress last : Progress}

/-! The records of the first pass are settled. -/

theorem syncRecord_of_placeRecord (h : placeRecord options store record = .ok (next, outcome))
    (placed : outcome ≠ .skipped .misplaced) :
    syncRecord options store record = .ok (next, outcome) := by
  cases record with
  | track record => exact h
  | playlist record =>
    rw [placeRecord, Progress.placePlaylist] at h
    cases step : syncPlaylist options store record with
    | ok result =>
      rw [step] at h
      exact step.trans h
    | error failure =>
      rw [step] at h
      simp only at h
      split at h
      · cases h
        exact absurd rfl placed
      · cases h

/-- The records of a stream are settled behind it, if they are of different entries and every
playlist found its place. -/
theorem settled_takeAll (h : Progress.takeAll options progress records = .ok last)
    (placed : .skipped .misplaced ∉ outcomes options progress.store
      (records.map (.ok : LibraryRecord → Except ε LibraryRecord)))
    (distinct : (records.filterMap LibraryRecord.subject?).Nodup)
    (kept : ∀ record ∈ records, record.persistentId ≠ some .highBit) :
    ∀ record ∈ records, Settled options last.store record := by
  induction records generalizing progress with
  | nil =>
    intro record mem
    cases mem
  | cons head rest ih =>
    obtain ⟨next, step, h⟩ := bind_eq_ok h
    obtain ⟨store, outcome, place, rfl⟩ := Progress.note_of_take step
    simp only [List.map_cons, outcomes, place, List.mem_cons, not_or] at placed
    obtain ⟨here, later⟩ := placed
    have keptRest (record : LibraryRecord) (mem : record ∈ rest) :=
      kept record (List.mem_cons_of_mem head mem)
    intro record mem
    rcases List.mem_cons.1 mem with rfl | mem
    · have whole : last.store = store.run (rest.map (.sync options)) := by
        rw [Progress.store_takeAll h, Progress.store_note]
      have settled := settled_of_syncRecord (syncRecord_of_placeRecord place (Ne.symm here))
      rw [whole]
      refine settled.spared fun id name => Store.spares_run fun t mem => ?_
      obtain ⟨other, among, rfl⟩ := List.mem_map.1 mem
      have subject := record.subject?_of_named name
      rw [List.filterMap_cons_some subject] at distinct
      refine Transaction.isForeign_sync ?_ (keptRest other among) ?_
      · rintro rfl
        exact kept record List.mem_cons_self name
      · intro same
        exact (List.nodup_cons.1 distinct).1 (List.mem_filterMap.2 ⟨other, among, same⟩)
    · have distinctRest : (rest.filterMap LibraryRecord.subject?).Nodup :=
        distinct.sublist ((List.sublist_cons_self head rest).filterMap _)
      refine ih h ?_ distinctRest keptRest record mem
      rw [Progress.store_note]
      exact later

/-- Pruning spares what was mentioned, so the records stay settled. -/
theorem settled_prune (all : Progress.takeAll options progress records = .ok last)
    (settled : ∀ record ∈ records, Settled options last.store record) :
    ∀ record ∈ records, Settled options (last.prune options).store record := by
  intro record mem
  rw [← run_prunings]
  refine (settled record mem).spared fun id name => ?_
  refine Store.spares_run fun t pruned => isForeign_of_mem_prunings ?_ pruned
  exact (Progress.mem_seen_takeAll all).2
    (.inl ⟨record, mem, id, record.subject?_of_named name, rfl⟩)

/-! Nothing is left to prune behind the first pass. -/

/-- Whatever an owner knows and a stream has not seen cannot be pruned. -/
structure IsPruned (options : Options) (store : Store) (seen : EntityKind → List String) :
    Prop where
  tracks : ∀ key, store.snapshot? .track options.owner key ≠ none → key ∈ seen .track
  playlists : ∀ key, store.snapshot? .playlist options.owner key ≠ none →
    key ∉ seen .playlist → prunePlaylist? options store key = none

/-- What cannot be pruned cannot be pruned later either. -/
theorem IsPruned.later {seen : EntityKind → List String} (h : IsPruned options store seen)
    (now : Timestamp) : IsPruned { options with now } store seen := by
  refine ⟨h.tracks, fun key known unseen => ?_⟩
  have waits := h.playlists key known unseen
  unfold prunePlaylist? at waits ⊢
  cases parsed : PersistentId.parse? key with
  | none =>
    rw [parsed] at waits
    cases waits
  | some id =>
    rw [parsed] at waits
    exact waits

theorem IsPruned.congr {seen seen' : EntityKind → List String} (h : IsPruned options store seen)
    (same : ∀ kind key, key ∈ seen' kind ↔ key ∈ seen kind) : IsPruned options store seen' :=
  ⟨fun key known => (same _ key).2 (h.tracks key known),
    fun key known unseen => h.playlists key known (mt (same _ key).2 unseen)⟩

theorem isPruned_prune (options : Options) (progress : Progress) :
    IsPruned options (progress.prune options).store progress.seen := by
  let stale := staleIds options progress.store .track progress.seenTracks
  let between := (pruneTracks options progress.store stale).1
  let pending := staleIds options between .playlist progress.seenPlaylists
  have final : (progress.prune options).store = (prunePlaylists options between pending).1 := rfl
  rw [final]
  refine ⟨?_, ?_⟩
  · intro key known
    rw [snapshot?_track_prunePlaylists, snapshot?_pruneTracks] at known
    split at known
    · exact absurd rfl known
    · rename_i fresh
      by_cases seen : key ∈ progress.seenTracks
      · exact seen
      · exact absurd ⟨rfl, rfl, mem_staleIds.2 ⟨known, seen⟩⟩ fresh
  · -- Pruning makes no snapshot, so one that is left has been there to be pruned.
    intro key known unseen
    have before : between.snapshot? .playlist options.owner key ≠ none :=
      fun absent => known (snapshot?_prunePlaylists absent pending)
    have mem : key ∈ pending := mem_staleIds.2 ⟨before, unseen⟩
    exact (blocked_prunePlaylists mem).resolve_left known

/-! The second pass. -/

theorem EntityStats.changed_record (stats : EntityStats) (silent : outcome.change? = none) :
    (stats.record outcome).changed = stats.changed := by
  cases outcome <;> first | rfl | cases silent

theorem Outcome.events_of_silent (silent : outcome.change? = none) (kind : EntityKind)
    (id : Option PersistentId) : outcome.events kind id = [] := by
  unfold events
  rw [silent]
  cases id <;> rfl

theorem Settled.placeRecord (h : Settled options store record) (now : Timestamp) :
    ∃ outcome, Sync.placeRecord { options with now } store record = .ok (store, outcome) ∧
      outcome.change? = none := by
  cases record with
  | track record => exact h.syncTrack now
  | playlist record =>
    obtain ⟨outcome, step, silent⟩ := h.syncPlaylist now
    refine ⟨outcome, ?_, silent⟩
    rw [Sync.placeRecord, Progress.placePlaylist, step]

/-- Records that are settled are taken in without a change. -/
theorem takeAll_of_settled (progress : Progress)
    (settled : ∀ record ∈ records, Settled options progress.store record) (now : Timestamp) :
    ∃ last, Progress.takeAll { options with now } progress records = .ok last ∧
      last.store = progress.store ∧ last.events = progress.events ∧
      ∀ kind, (last.statsOf kind).changed = (progress.statsOf kind).changed := by
  induction records generalizing progress with
  | nil => exact ⟨progress, rfl, rfl, rfl, fun _ => rfl⟩
  | cons head rest ih =>
    obtain ⟨outcome, place, silent⟩ := (settled head List.mem_cons_self).placeRecord now
    have step := Progress.take_of_placeRecord place
    have settledRest (record : LibraryRecord) (mem : record ∈ rest) :
        Settled options (progress.note head progress.store outcome).store record := by
      rw [Progress.store_note]
      exact settled record (List.mem_cons_of_mem head mem)
    obtain ⟨last, all, store, events, stats⟩ := ih _ settledRest
    refine ⟨last, ?_, ?_, ?_, ?_⟩
    · exact (Progress.takeAll_cons step rest).trans all
    · rw [store, Progress.store_note]
    · rw [events, Progress.events_note, Outcome.events_of_silent silent, List.append_nil]
    · intro kind
      rw [stats, Progress.statsOf_note, apply_ite EntityStats.changed,
        EntityStats.changed_record _ silent, ite_self]

/-- Where nothing is left to prune, pruning changes nothing. -/
theorem IsPruned.prune (h : IsPruned options progress.store progress.seen) :
    (progress.prune options).store = progress.store ∧
      (progress.prune options).events = progress.events ∧
      ∀ kind, ((progress.prune options).statsOf kind).changed ≤
        (progress.statsOf kind).changed := by
  have tracks : staleIds options progress.store .track progress.seenTracks = [] := by
    apply List.eq_nil_iff_forall_not_mem.2
    intro key mem
    obtain ⟨known, unseen⟩ := mem_staleIds.1 mem
    exact unseen (h.tracks key known)
  have playlists : prunePlaylists options progress.store
      (staleIds options progress.store .playlist progress.seenPlaylists) =
        (progress.store, []) := by
    apply prunePlaylists_of_blocked
    intro key mem
    obtain ⟨known, unseen⟩ := mem_staleIds.1 mem
    exact h.playlists key known unseen
  unfold Progress.prune
  simp only [tracks, pruneTracks, playlists, List.map_nil, List.append_nil, true_and]
  intro kind
  cases kind <;> simp [Progress.statsOf, EntityStats.changed]

/-- A second pass over the same records changes nothing. Where a stream of records of different
entries came to its end and every playlist found its place, the same stream once more, whatever the
clock says, leaves the store as it is, tells of no event, and counts nothing as created, updated or
deleted. -/
theorem second_pass (options : Options) (store : Store) (records : List LibraryRecord)
    (now : Timestamp) (distinct : (records.filterMap LibraryRecord.subject?).Nodup)
    (kept : ∀ record ∈ records, record.persistentId ≠ some .highBit)
    (complete : (stream options store
      (records.map (.ok : LibraryRecord → Except LineFault LibraryRecord))).IsComplete)
    (placed : .skipped .misplaced ∉ outcomes options store
      (records.map (.ok : LibraryRecord → Except LineFault LibraryRecord))) :
    let items := records.map (.ok : LibraryRecord → Except LineFault LibraryRecord)
    let first := (stream options store items).progress
    let again := stream { options with now } first.store items
    again.IsComplete ∧ again.progress.store = first.store ∧ again.progress.events = [] ∧
      ∀ kind, (again.progress.statsOf kind).created = 0 ∧
        (again.progress.statsOf kind).updated = 0 ∧ (again.progress.statsOf kind).deleted = 0 := by
  intro items first again
  obtain ⟨records', last, same, all⟩ := takeAll_of_isComplete complete
  have ok_injective : Function.Injective (.ok : LibraryRecord → Except LineFault LibraryRecord) :=
    fun _ _ => Except.ok.inj
  obtain rfl := List.map_injective_iff.2 ok_injective same
  have first_eq : first = last.prune options := congrArg Result.progress (resume_of_takeAll all)
  have settled : ∀ record ∈ records, Settled options first.store record := by
    rw [first_eq]
    exact settled_prune all (settled_takeAll all placed distinct kept)
  -- The second pass takes the same records in and so mentions the same entries.
  obtain ⟨final, all', store', events', stats'⟩ :=
    takeAll_of_settled ⟨first.store, {}, [], [], []⟩ settled now
  have mentioned (kind : EntityKind) (key : String) :
      key ∈ final.seen kind ↔ key ∈ last.seen kind := by
    rw [Progress.mem_seen_takeAll all', Progress.mem_seen_takeAll all]
    cases kind <;> rfl
  have pruned : IsPruned { options with now } final.store final.seen := by
    have closed := isPruned_prune options last
    rw [← first_eq] at closed
    rw [store']
    exact (closed.later now).congr mentioned
  obtain ⟨store'', events'', stats''⟩ := pruned.prune
  have again_eq : again.progress = final.prune { options with now } :=
    congrArg Result.progress (resume_of_takeAll all')
  refine ⟨isComplete_of_takeAll rfl all', ?_, ?_, ?_⟩
  · rw [again_eq]
    exact store''.trans store'
  · rw [again_eq]
    exact events''.trans events'
  · intro kind
    have silent : (final.statsOf kind).changed = 0 := by
      rw [stats' kind]
      cases kind <;> rfl
    have none_changed := stats'' kind
    rw [silent, EntityStats.changed] at none_changed
    rw [again_eq]
    omega

/-- A week later a track was deleted here, a list has become a folder in the file, and a folder is
gone from it in which a list of the user lies. -/
theorem second_pass_weekLater :
    let options : Options := { owner := some 1, actor := "cron", now := ⟨7⟩ }
    let track (id : PersistentId) : LibraryRecord :=
      .track { persistentId := some id, location := some "file:///blue" }
    let playlist (id : PersistentId) (folder : Bool) : LibraryRecord :=
      .playlist { persistentId := some id, name := some "Mix", folder := some folder }
    let store := Store.empty.callAll
      [.stream options [.ok (track ⟨1⟩), .ok (playlist ⟨32⟩ true), .ok (playlist ⟨33⟩ false)],
       .edit (.savePlaylist { Playlist.empty ⟨34⟩ "Mine" .standard with parentId := some ⟨32⟩ }
        "user"),
       .edit (.deleteTrack ⟨1⟩ "user")]
    let records := [playlist ⟨33⟩ true, track ⟨2⟩,
      .track { persistentId := some ⟨1⟩, location := some "file:///red" }]
    let items := records.map (.ok : LibraryRecord → Except LineFault LibraryRecord)
    outcomes options store items =
        [.skipped .shapeChanged, .created, .skipped .deletedLocally] ∧
      ((stream options store items).progress.store.playlists.find? 32).isSome = true ∧
      (stream { options with now := ⟨8⟩ } (stream options store items).progress.store
        items).progress.store = (stream options store items).progress.store := by
  intro options track playlist store records items
  have told : outcomes options store items =
      [.skipped .shapeChanged, .created, .skipped .deletedLocally] := by decide +kernel
  have placed : .skipped .misplaced ∉ outcomes options store items := by
    rw [told]
    decide
  have complete : (stream options store items).IsComplete := by decide +kernel
  refine ⟨told, by decide +kernel, ?_⟩
  exact (second_pass options store records ⟨8⟩ (by decide) (by decide) complete placed).2.1

end MusicLibrary.Sync
