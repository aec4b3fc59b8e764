import MusicLibrary.Proofs.Sync.Trail

/-! The books of a stream agree. What became of its records is told as events, counted in the
statistics and written to the audit trail, each in a place of its own; and the three say the same,
also of a stream that breaks off or fails, and with what is pruned behind one that does not. -/

namespace MusicLibrary.Sync

/-- The counter of what a change befell. -/
def EntityStats.number (stats : EntityStats) : ChangeKind → Nat
  | .created => stats.created
  | .changed => stats.updated
  | .deleted => stats.deleted

/-- How many changes of a sort are told of entries of a kind. -/
def told (events : List ChangeEvent) (kind : EntityKind) (change : ChangeKind) : Nat :=
  events.countP fun event => event.kind = kind ∧ event.change = change

theorem told_append (events more : List ChangeEvent) (kind : EntityKind) (change : ChangeKind) :
    told (events ++ more) kind change = told events kind change + told more kind change :=
  List.countP_append

theorem length_eq_told (events : List ChangeEvent) : events.length =
    (told events .track .created + told events .track .changed + told events .track .deleted) +
      (told events .playlist .created + told events .playlist .changed +
        told events .playlist .deleted) := by
  induction events with
  | nil => rfl
  | cons event rest ih =>
    obtain ⟨kind, id, change⟩ := event
    rw [List.length_cons, ih]
    cases kind <;> cases change <;> simp [told] <;> omega

/-! Counted in the statistics. -/

/-- As many events are told as are counted. -/
def Progress.IsTallied (progress : Progress) : Prop :=
  ∀ kind change, told progress.events kind change = (progress.statsOf kind).number change

theorem number_ofOutcomes (outcomes : List Outcome) (change : ChangeKind) :
    (EntityStats.ofOutcomes outcomes).number change =
      outcomes.countP fun outcome => outcome.change? = some change := by
  induction outcomes with
  | nil => cases change <;> rfl
  | cons outcome rest ih =>
    rw [List.countP_cons, ← ih]
    cases change <;> cases outcome <;>
      simp [EntityStats.number, EntityStats.ofOutcomes, Outcome.change?]

variable {options : Options} {store last : Store} {outcome : Outcome}
  {log : List (LibraryRecord × Outcome)}

/-- Only what has a name is changed. -/
theorem persistentId_of_change {record : LibraryRecord} {next : Store}
    (step : syncRecord options store record = .ok (next, outcome))
    (changed : outcome.change? ≠ none) : ∃ id, record.persistentId = some id := by
  cases record with
  | track record =>
    cases trackStep_of_syncTrack step with
    | nameless => exact absurd rfl changed
    | notImportable name | known name | gone name | created name | settled name | merged name =>
      exact ⟨_, name⟩
  | playlist record =>
    cases playlistStep_of_syncPlaylist step with
    | nameless => exact absurd rfl changed
    | system name | known name | gone name | created name | otherShape name | settled name
    | merged name =>
      exact ⟨_, name⟩

theorem told_eventsOf {record : LibraryRecord}
    (named : outcome.change? ≠ none → ∃ id, record.persistentId = some id) (kind : EntityKind)
    (change : ChangeKind) :
    told (eventsOf (record, outcome)) kind change =
      if record.kind = kind ∧ outcome.change? = some change then 1 else 0 := by
  cases changed : outcome.change? with
  | none =>
    rw [eventsOf_of_quiet changed]
    simp [told]
  | some own =>
    obtain ⟨id, name⟩ := named (by simp [changed])
    rw [eventsOf_of_change name changed]
    by_cases kind_eq : record.kind = kind <;> by_cases change_eq : own = change <;>
      simp [told, kind_eq, change_eq]

theorem OneByOne.told (all : OneByOne options store log last) (kind : EntityKind)
    (change : ChangeKind) :
    Sync.told (log.flatMap eventsOf) kind change =
      log.countP fun entry => entry.1.kind = kind ∧ entry.2.change? = some change := by
  induction all with
  | nil => rfl
  | @taken _ _ _ record outcome rest step later ih =>
    rw [List.flatMap_cons, told_append, ih, told_eventsOf (persistentId_of_change step),
      List.countP_cons, Nat.add_comm]
    simp only [decide_eq_true_eq]
  | @misplaced _ _ record _ rest step refused later ih =>
    have quiet : eventsOf (.playlist record, .skipped .misplaced) = [] := eventsOf_of_quiet rfl
    rw [List.flatMap_cons, quiet, List.nil_append, ih, List.countP_cons]
    simp [Outcome.change?]

theorem Progress.Tells.isTallied {progress : Progress} (tells : progress.Tells log last)
    (all : OneByOne options store log last) : progress.IsTallied := by
  intro kind change
  have events : progress.events = log.flatMap eventsOf := tells.events
  rw [events, all.told, tells.stats, number_ofOutcomes, List.countP_map, List.countP_filter]
  simp only [Function.comp_apply, Bool.decide_and, Bool.and_comm]

theorem told_deletions (kind other : EntityKind) (ids : List PersistentId) (change : ChangeKind) :
    told (deletions kind ids) other change =
      if kind = other ∧ change = .deleted then ids.length else 0 := by
  by_cases own : kind = other <;> cases change <;> simp [told, deletions, own, List.countP_map,
    Function.comp_def]

/-- What is pruned is counted with the rest, if nothing was before. -/
theorem Progress.IsTallied.prune {progress : Progress} (h : progress.IsTallied)
    (nothing : ∀ kind, (progress.statsOf kind).deleted = 0) :
    (progress.prune options).IsTallied := by
  intro kind change
  have before := h kind change
  have none := nothing kind
  rw [events_prune, told_append, before, deletions, told_append, told_deletions, told_deletions]
  cases kind <;> cases change <;> simp [EntityStats.number, none] <;> rfl

theorem Progress.IsTallied.changed {progress : Progress} (h : progress.IsTallied) :
    progress.stats.changed = progress.events.length := by
  rw [length_eq_told]
  simp only [h _ _]
  rfl

theorem Progress.processed_note (progress : Progress) (record : LibraryRecord) (store : Store)
    (outcome : Outcome) : (progress.note record store outcome).stats.processed =
      progress.stats.processed + 1 := by
  cases record <;> simp only [note, Stats.processed, EntityStats.processed_record] <;> omega

theorem Progress.processed_takeAll {progress final : Progress} {records : List LibraryRecord}
    (all : takeAll options progress records = .ok final) :
    final.stats.processed = progress.stats.processed + records.length := by
  induction records generalizing progress with
  | nil =>
    cases all
    rfl
  | cons record rest ih =>
    obtain ⟨next, step, later⟩ := bind_eq_ok all
    obtain ⟨store, outcome, -, rfl⟩ := note_of_take step
    rw [ih later, processed_note, List.length_cons]
    omega

/-! Audited. -/

/-- Without the moves the lines for a record are what is told of it. -/
theorem filter_headingsOf (entry : LibraryRecord × Outcome) :
    (headingsOf entry).filter (fun heading => heading.kind ≠ AuditKind.playlistMoved.label) =
      (eventsOf entry).map ChangeEvent.heading := by
  have moved (id : PersistentId) :
      (AuditKind.playlistMoved.heading id).kind = AuditKind.playlistMoved.label := rfl
  rw [headingsOf, List.filter_flatMap, List.map_eq_flatMap]
  congr 1
  funext event
  cases entry.2.isMove <;> simp [event.kind_heading_ne_moved, moved]

theorem filter_headings (log : List (LibraryRecord × Outcome)) (deleted : List ChangeEvent) :
    (log.flatMap headingsOf ++ deleted.map ChangeEvent.heading).filter
        (fun heading => heading.kind ≠ AuditKind.playlistMoved.label) =
      (log.flatMap eventsOf ++ deleted).map ChangeEvent.heading := by
  have kept : ∀ heading ∈ deleted.map ChangeEvent.heading,
      decide (heading.kind ≠ AuditKind.playlistMoved.label) = true := by
    intro heading mem
    obtain ⟨event, -, rfl⟩ := List.mem_map.1 mem
    exact decide_eq_true event.kind_heading_ne_moved
  rw [List.filter_append, List.filter_flatMap, List.map_append, List.map_flatMap,
    List.filter_eq_self.2 kept]
  simp only [filter_headingsOf]

/-! The records of a stream. -/

theorem OneByOne.cons_of_placeRecord {record : LibraryRecord} {next : Store}
    (step : placeRecord options store record = .ok (next, outcome))
    (later : OneByOne options next log last) :
    OneByOne options store ((record, outcome) :: log) last := by
  cases record with
  | track record => exact .taken step later
  | playlist record =>
    rw [placeRecord, Progress.placePlaylist] at step
    split at step
    · rename_i failure failed
      split at step
      · rename_i refused
        cases step
        exact .misplaced failed refused later
      · cases step
    · exact .taken step later

/-- What a stream has taken in was synchronised one by one. -/
theorem oneByOne_of_takeAll {progress final : Progress} {records : List LibraryRecord}
    (all : Progress.takeAll options progress records = .ok final) :
    ∃ log, log.map Prod.fst = records ∧ OneByOne options progress.store log final.store := by
  induction records generalizing progress with
  | nil =>
    cases all
    exact ⟨[], rfl, .nil⟩
  | cons record rest ih =>
    obtain ⟨next, step, later⟩ := bind_eq_ok all
    obtain ⟨store, outcome, place, rfl⟩ := Progress.note_of_take step
    obtain ⟨log, same, one⟩ := ih later
    rw [Progress.store_note] at one
    exact ⟨(record, outcome) :: log, congrArg (record :: ·) same, .cons_of_placeRecord place one⟩

/-- The books behind the records of a stream, before anything is pruned. -/
theorem books_of_takeAll {final : Progress} {records : List LibraryRecord}
    (all : Progress.takeAll options ⟨store, {}, [], [], []⟩ records = .ok final) :
    ∃ log, log.map Prod.fst = records ∧ OneByOne options store log final.store ∧
      final.events = log.flatMap eventsOf ∧ final.IsTallied ∧
      (∀ kind, (final.statsOf kind).deleted = 0) ∧ final.stats.processed = log.length := by
  obtain ⟨log, rfl, one⟩ := oneByOne_of_takeAll all
  obtain ⟨same, taken, store_eq, events, stats⟩ :=
    one.takesIn (rfl : (⟨store, {}, [], [], []⟩ : Progress).store = store)
  obtain rfl : same = final := Except.ok.inj (taken.symm.trans all)
  have counted (kind : EntityKind) : same.statsOf kind =
      .ofOutcomes ((log.filter (·.1.kind = kind)).map Prod.snd) := by
    rw [stats, foldl_record]
    cases kind <;> simp [Progress.statsOf, EntityStats.ofOutcomes]
  have tells : same.Tells log same.store := ⟨rfl, events, counted⟩
  have processed := Progress.processed_takeAll all
  refine ⟨log, rfl, one, events, tells.isTallied one, ?_, ?_⟩
  · intro kind
    rw [counted]
    rfl
  · rw [processed, List.length_map]
    exact Nat.zero_add _

/-- The books of a stream: how it tells, audits and counts the records of a log and what it pruned
behind them. -/
structure Books (store : Store) (progress : Progress) (log : List (LibraryRecord × Outcome))
    (pruned : List ChangeEvent) (lines : List AuditEntry) : Prop where
  deleted : ∀ event ∈ pruned, event.change = .deleted
  told : progress.events = log.flatMap eventsOf ++ pruned
  /-- The lines are new in the trail. -/
  audited : progress.store.audit = store.audit ++ lines
  /-- A move stands in front of the change that it is a part of, and nowhere else. -/
  headed : lines.map AuditEntry.heading =
    log.flatMap headingsOf ++ pruned.map ChangeEvent.heading
  /-- Without the moves the lines are the events, one by one. -/
  matched : (lines.filter fun line => line.kind ≠ AuditKind.playlistMoved.label).map
    AuditEntry.heading = progress.events.map ChangeEvent.heading
  counted : ∀ kind change, Sync.told progress.events kind change =
    (progress.statsOf kind).number change
  changed : progress.stats.changed = progress.events.length
  processed : progress.stats.processed = log.length

theorem exists_books {progress : Progress} {pruned : List ChangeEvent}
    (deleted : ∀ event ∈ pruned, event.change = .deleted)
    (events : progress.events = log.flatMap eventsOf ++ pruned)
    (trail : store.Appends progress.store
      (log.flatMap headingsOf ++ pruned.map ChangeEvent.heading))
    (tallied : progress.IsTallied) (processed : progress.stats.processed = log.length) :
    ∃ lines, Books store progress log pruned lines := by
  obtain ⟨lines, audit, headings⟩ := trail
  have matched : (lines.filter fun line => line.kind ≠ AuditKind.playlistMoved.label).map
      AuditEntry.heading = progress.events.map ChangeEvent.heading := by
    rw [events, ← filter_headings, ← headings, List.filter_map]
    rfl
  exact ⟨lines, deleted, events, audit, headings, matched, tallied, tallied.changed, processed⟩

/-- Where nothing is pruned the books are those of the records. -/
theorem exists_books_unpruned {progress : Progress}
    (one : OneByOne options store log progress.store)
    (events : progress.events = log.flatMap eventsOf) (tallied : progress.IsTallied)
    (processed : progress.stats.processed = log.length) :
    ∃ lines, Books store progress log [] lines := by
  have nothing : ∀ event ∈ ([] : List ChangeEvent), event.change = .deleted := nofun
  apply exists_books nothing _ _ tallied processed
  · rw [events, List.append_nil]
  · rw [List.map_nil, List.append_nil]
    exact one.appends

theorem Progress.IsTallied.abort {progress : Progress} (h : progress.IsTallied) :
    progress.abort.IsTallied := by
  intro kind change
  rw [progress.statsOf_abort]
  exact h kind change

theorem Progress.deleted_deletions (options : Options) (progress : Progress) :
    ∀ event ∈ progress.deletions options, event.change = .deleted := by
  intro event mem
  rcases List.mem_append.1 mem with mem | mem
  · obtain ⟨id, -, rfl⟩ := List.mem_map.1 mem
    rfl
  · obtain ⟨id, -, rfl⟩ := List.mem_map.1 mem
    rfl

theorem snapshotsAreRecords_oneByOne (records : store.SnapshotsAreRecords)
    (all : OneByOne options store log last) : last.SnapshotsAreRecords := by
  induction all with
  | nil => exact records
  | taken step later ih =>
    apply ih
    rw [← Store.commit_of_ok (Store.attempt_of_syncRecord step)]
    exact Store.snapshotsAreRecords_commit records _
  | misplaced step refused later ih => exact ih records

theorem takeWhile_isOk {ε : Type} (log : List (LibraryRecord × Outcome))
    (rest : List (Except ε LibraryRecord)) (stops : ∀ item ∈ rest.head?, item.isOk = false) :
    log.map (fun entry => .ok entry.1) =
      ((log.map Prod.fst).map Except.ok ++ rest).takeWhile Except.isOk := by
  induction log with
  | cons entry log ih => exact congrArg (_ :: ·) ih
  | nil =>
    cases rest with
    | nil => rfl
    | cons item rest => exact (List.takeWhile_cons_of_neg (by simp [stops item rfl])).symm

/-- Whatever has been done to a library before, a stream tells, counts and audits the same, be it
read to its end or not; and one that does not fail has processed all that can be read of it. -/
theorem books_agree {ε : Type} (calls : List Call) (options : Options)
    (items : List (Except ε LibraryRecord)) :
    let store := Store.empty.callAll calls
    let result := stream options store items
    ∃ log last pruned lines, OneByOne options store log last ∧
      Books store result.progress log pruned lines ∧
      (result.failure = none →
        log.map (fun entry => .ok entry.1) = items.takeWhile Except.isOk) := by
  intro store result
  have records : store.SnapshotsAreRecords := Store.snapshotsAreRecords_callAll calls
  have exit : StreamExit options ⟨store, {}, [], [], []⟩ items result := streamExit_resume ..
  clear_value result
  cases exit with
  | @complete _ final all =>
    obtain ⟨log, rfl, one, events, tallied, nothing, processed⟩ := books_of_takeAll all
    have told : (final.prune options).events =
        log.flatMap eventsOf ++ final.deletions options := by
      rw [final.events_prune, events]
    have trail := one.appends.trans
      (Progress.appends_prune options (snapshotsAreRecords_oneByOne records one))
    obtain ⟨lines, books⟩ := exists_books (final.deleted_deletions options) told trail
      (tallied.prune nothing) processed
    refine ⟨log, final.store, final.deletions options, lines, one, books, ?_⟩
    intro _
    have read := takeWhile_isOk log ([] : List (Except ε LibraryRecord)) (by simp)
    rwa [List.append_nil] at read
  | @aborted _ final fault rest all =>
    obtain ⟨log, rfl, one, events, tallied, -, processed⟩ := books_of_takeAll all
    have same : final.abort.store = final.store := rfl
    rw [← same] at one
    obtain ⟨lines, books⟩ := exists_books_unpruned one events tallied.abort processed
    refine ⟨log, final.store, [], lines, one, books, ?_⟩
    intro _
    apply takeWhile_isOk
    rintro item ⟨⟩
    rfl
  | @failed _ final record failure rest all stops =>
    obtain ⟨log, rfl, one, events, tallied, -, processed⟩ := books_of_takeAll all
    obtain ⟨lines, books⟩ := exists_books_unpruned one events tallied processed
    refine ⟨log, final.store, [], lines, one, books, ?_⟩
    intro ends
    exact absurd ends (Option.some_ne_none failure)

/-- A list moves to another folder, a track is new, one has gone, and one has no name. -/
theorem books_agree_movedList :
    let options : Options := { owner := some 1, actor := "cron", now := ⟨7⟩ }
    let track (id : PersistentId) : LibraryRecord :=
      .track { persistentId := some id, location := some "file:///blue" }
    let folder (id : PersistentId) : LibraryRecord :=
      .playlist { persistentId := some id, folder := some true }
    let list (parent : PersistentId) : LibraryRecord :=
      .playlist { persistentId := some ⟨9⟩, parentPersistentId := some parent }
    let calls : List Call := [.stream options [.ok (track ⟨1⟩), .ok (folder ⟨7⟩),
      .ok (folder ⟨8⟩), .ok (list ⟨7⟩)]]
    let items : List (Except LineFault LibraryRecord) := [.ok (folder ⟨7⟩), .ok (folder ⟨8⟩),
      .ok (list ⟨8⟩), .ok (.track {}), .ok (track ⟨2⟩)]
    let result := stream options (Store.empty.callAll calls) items
    result.failure = none ∧ result.progress.stats.processed = 5 ∧
      ∃ lines, result.progress.store.audit = (Store.empty.callAll calls).audit ++ lines ∧
        (lines.filter fun line => line.kind ≠ AuditKind.playlistMoved.label).map
            AuditEntry.heading =
          [AuditKind.playlistUpdated.heading ⟨9⟩, AuditKind.trackCreated.heading ⟨2⟩,
            AuditKind.trackDeleted.heading ⟨1⟩] := by
  intro options track folder list calls items result
  obtain ⟨log, last, pruned, lines, one, books, read⟩ := books_agree calls options items
  have ends : result.failure = none := by decide +kernel
  have readable : (items.takeWhile Except.isOk).length = 5 := rfl
  have processed : log.length = 5 := by
    rw [← readable, ← read ends, List.length_map]
  have events : result.progress.events = [⟨.playlist, ⟨9⟩, .changed⟩, ⟨.track, ⟨2⟩, .created⟩,
      ⟨.track, ⟨1⟩, .deleted⟩] := by decide +kernel
  refine ⟨ends, books.processed.trans processed, lines, books.audited, ?_⟩
  rw [books.matched]
  exact congrArg (List.map ChangeEvent.heading) events

end MusicLibrary.Sync
