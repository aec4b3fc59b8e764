import Mathlib.Data.List.Induction
import MusicLibrary.Proofs.Record.Lines
import MusicLibrary.Proofs.Sync.Stream

/-! A stream that breaks off, or in which a record fails, is its prefix: all that is left is what
the records before have made, one by one. -/

namespace MusicLibrary

namespace Sync

variable {options : Options} {progress final : Progress}

/-! Records one by one. -/

/-- The failure of a record, unless it is a playlist that has no place among the folders. -/
def Fails (options : Options) (store : Store) (record : LibraryRecord) (failure : Failure) : Prop :=
  syncRecord options store record = .error failure ∧ failure.isMisplaced = false

/-- Records that are synchronised one by one, each on the store that the one before it has left:
what becomes of them, and the store behind them. A playlist that has no place among the folders is
skipped. -/
inductive OneByOne (options : Options) :
    Store → List (LibraryRecord × Outcome) → Store → Prop
  | nil {store} : OneByOne options store [] store
  | taken {store next last record outcome rest}
    (step : syncRecord options store record = .ok (next, outcome))
    (later : OneByOne options next rest last) :
    OneByOne options store ((record, outcome) :: rest) last
  | misplaced {store last record failure rest}
    (step : syncPlaylist options store record = .error failure)
    (refused : failure.isMisplaced = true) (later : OneByOne options store rest last) :
    OneByOne options store ((.playlist record, .skipped .misplaced) :: rest) last

/-- The counters of outcomes, if nothing is pruned. -/
def EntityStats.ofOutcomes (outcomes : List Outcome) : EntityStats where
  created := outcomes.countP (· matches .created)
  updated := outcomes.countP (· matches .updated ..)
  unchanged := outcomes.countP (· matches .unchanged)
  skipped := outcomes.countP (· matches .skipped _)
  conflicts := outcomes.countP (· matches .updated _ true)

/-- The progress is what became of the records of a log, and no more. -/
structure Progress.Tells (progress : Progress) (log : List (LibraryRecord × Outcome))
    (last : Store) : Prop where
  store : progress.store = last
  events : progress.events = log.flatMap fun entry =>
    entry.2.events entry.1.kind entry.1.persistentId
  stats : ∀ kind, progress.statsOf kind =
    .ofOutcomes ((log.filter (·.1.kind = kind)).map Prod.snd)

theorem foldl_record (stats : EntityStats) (outcomes : List Outcome) :
    outcomes.foldl EntityStats.record stats =
      let counted := EntityStats.ofOutcomes outcomes
      { stats with
        created := stats.created + counted.created
        updated := stats.updated + counted.updated
        unchanged := stats.unchanged + counted.unchanged
        skipped := stats.skipped + counted.skipped
        conflicts := stats.conflicts + counted.conflicts } := by
  induction outcomes generalizing stats with
  | nil => rfl
  | cons outcome rest ih =>
    rw [List.foldl_cons, ih]
    rcases outcome with _ | ⟨_, _ | _⟩ | _ | _ <;>
      simp [EntityStats.record, EntityStats.ofOutcomes, Nat.add_assoc, Nat.add_comm]

variable {store last : Store} {log : List (LibraryRecord × Outcome)}

theorem placeRecord_of_syncRecord {record : LibraryRecord} {next : Store} {outcome : Outcome}
    (step : syncRecord options store record = .ok (next, outcome)) :
    placeRecord options store record = .ok (next, outcome) := by
  cases record with
  | track record => exact step
  | playlist record =>
    change syncPlaylist options store record = .ok (next, outcome) at step
    rw [placeRecord, Progress.placePlaylist, step]

theorem placeRecord_of_misplaced {record : PlaylistRecord} {failure : Failure}
    (step : syncPlaylist options store record = .error failure)
    (refused : failure.isMisplaced = true) :
    placeRecord options store (.playlist record) = .ok (store, .skipped .misplaced) := by
  rw [placeRecord, Progress.placePlaylist, step]
  exact if_pos refused

theorem Fails.placeRecord {record : LibraryRecord} {failure : Failure}
    (fails : Fails options store record failure) :
    placeRecord options store record = .error failure := by
  obtain ⟨step, other⟩ := fails
  cases record with
  | track record => exact step
  | playlist record =>
    change syncPlaylist options store record = .error failure at step
    rw [Sync.placeRecord, Progress.placePlaylist, step]
    exact if_neg (by simp [other])

theorem isMisplaced_of_recordOf {read : Json → Option α} {id : α → Option PersistentId}
    {data : String} {failure : Failure} (h : recordOf read id data = .error failure) :
    failure.isMisplaced = false := by
  unfold recordOf at h
  split at h
  · cases h
    rfl
  · split at h
    · cases h
      rfl
    · cases h

theorem isMisplaced_of_told {option : Option α} {failure : Failure}
    (h : Store.told .overflow option = .error failure) : failure.isMisplaced = false := by
  cases option <;> cases h
  rfl

theorem isMisplaced_of_mergeTrack {id : PersistentId} {record : TrackRecord} {previous : String}
    {stored : Track} {failure : Failure}
    (h : mergeTrack options store id record previous stored = .error failure) :
    failure.isMisplaced = false := by
  cases base : recordOf TrackRecord.ofJson? (·.persistentId) previous with
  | error fault =>
    rw [mergeTrack, base] at h
    cases h
    exact isMisplaced_of_recordOf base
  | ok old =>
    simp only [mergeTrack, base, bind, Except.bind, pure, Except.pure] at h
    split at h
    · rename_i overflow
      cases h
      exact isMisplaced_of_told overflow
    · split at h <;> cases h

/-- Only a playlist can have no place. -/
theorem isMisplaced_of_syncTrack {record : TrackRecord} {failure : Failure}
    (h : syncTrack options store record = .error failure) : failure.isMisplaced = false := by
  unfold syncTrack at h
  split at h
  · cases h
  · split at h
    · cases h
    · split at h
      · cases h
      · split at h
        · cases h
        · split at h
          · cases h
          · exact isMisplaced_of_mergeTrack h

/-- Records can be taken in one by one up to the first that fails. -/
theorem oneByOne_or_fails (options : Options) (store : Store) (records : List LibraryRecord) :
    (∃ log last, log.map Prod.fst = records ∧ OneByOne options store log last) ∨
      ∃ log last record rest failure, records = log.map Prod.fst ++ record :: rest ∧
        OneByOne options store log last ∧ Fails options last record failure := by
  induction records generalizing store with
  | nil => exact .inl ⟨[], store, rfl, .nil⟩
  | cons record rest ih =>
    -- What the later records come to, behind this one.
    have further {next : Store} {outcome : Outcome}
        (own : ∀ log last, OneByOne options next log last →
          OneByOne options store ((record, outcome) :: log) last) :
        (∃ log last, log.map Prod.fst = record :: rest ∧ OneByOne options store log last) ∨
          ∃ log last stop others failure, record :: rest = log.map Prod.fst ++ stop :: others ∧
            OneByOne options store log last ∧ Fails options last stop failure := by
      rcases ih next with
        ⟨log, last, same, all⟩ | ⟨log, last, stop, others, failure, same, all, fails⟩
      · exact .inl ⟨(record, outcome) :: log, last, congrArg (record :: ·) same, own log last all⟩
      · exact .inr ⟨(record, outcome) :: log, last, stop, others, failure,
          congrArg (record :: ·) same, own log last all, fails⟩
    cases step : syncRecord options store record with
    | ok result => exact further fun log last => .taken step
    | error failure =>
      cases refused : failure.isMisplaced with
      | false => exact .inr ⟨[], store, record, rest, failure, rfl, .nil, step, refused⟩
      | true =>
        cases record with
        | track record => cases (isMisplaced_of_syncTrack step).symm.trans refused
        | playlist record => exact further fun log last => .misplaced step refused

theorem Progress.statsOf_abort (progress : Progress) (kind : EntityKind) :
    progress.abort.statsOf kind = progress.statsOf kind := by
  cases kind <;> rfl

/-- From a progress on records are taken in, and become what a log tells. -/
def Progress.TakesIn (options : Options) (progress : Progress)
    (log : List (LibraryRecord × Outcome)) (last : Store) : Prop :=
  ∃ final, takeAll options progress (log.map Prod.fst) = .ok final ∧ final.store = last ∧
    final.events = progress.events ++ log.flatMap (fun entry =>
      entry.2.events entry.1.kind entry.1.persistentId) ∧
    ∀ kind, final.statsOf kind =
      ((log.filter (·.1.kind = kind)).map Prod.snd).foldl EntityStats.record
        (progress.statsOf kind)

theorem Progress.TakesIn.cons {record : LibraryRecord} {next : Store} {outcome : Outcome}
    (step : placeRecord options progress.store record = .ok (next, outcome))
    (later : TakesIn options (progress.note record next outcome) log last) :
    TakesIn options progress ((record, outcome) :: log) last := by
  obtain ⟨final, all, store, events, stats⟩ := later
  refine ⟨final, ?_, store, ?_, ?_⟩
  · exact (takeAll_cons (take_of_placeRecord step) _).trans all
  · rw [events, events_note, List.flatMap_cons, List.append_assoc]
  · intro kind
    rw [stats, statsOf_note]
    by_cases same : record.kind = kind
    · simp [same]
    · simp [same, Ne.symm same]

/-- A stream takes records in as they are synchronised one by one. -/
theorem OneByOne.takesIn (all : OneByOne options store log last) {progress : Progress}
    (start : progress.store = store) : progress.TakesIn options log last := by
  induction all generalizing progress with
  | nil => exact ⟨progress, rfl, start, (List.append_nil _).symm, fun _ => rfl⟩
  | taken step later ih =>
    subst start
    exact .cons (placeRecord_of_syncRecord step) (ih (Progress.store_note ..))
  | misplaced step refused later ih =>
    subst start
    exact .cons (placeRecord_of_misplaced step refused) (ih (Progress.store_note ..))

/-- Records that are synchronised one by one are calls of their own. -/
theorem OneByOne.callAll (all : OneByOne options store log last) :
    store.callAll (log.map fun entry => .sync options entry.1) = last := by
  induction all with
  | nil => rfl
  | @taken store next last record outcome rest step later ih =>
    rw [List.map_cons, Store.callAll, List.foldl_cons, Store.call,
      Store.commit_of_ok (Store.attempt_of_syncRecord step)]
    exact ih
  | @misplaced store last record failure rest step refused later ih =>
    have failed : syncRecord options store (.playlist record) = .error failure := step
    rw [List.map_cons, Store.callAll, List.foldl_cons, Store.call,
      Store.commit_of_error (Store.attempt_of_syncRecord_error failed)]
    exact ih

/-- An aborted or a failed stream is its prefix. Up to the first record that fails the records of a
stream can be synchronised one by one; where the stream breaks off behind them or fails, the store,
the events and the counters are those of these records, nothing is pruned, and no later item has had
an effect. The items of a text are its lines that are not blank, and the fault of a line tells its
number, which counts blank lines. -/
theorem stream_is_prefix (options : Options) (store : Store) :
    (∀ records : List LibraryRecord,
      (∃ log last, log.map Prod.fst = records ∧ OneByOne options store log last) ∨
        ∃ log last record rest failure, records = log.map Prod.fst ++ record :: rest ∧
          OneByOne options store log last ∧ Fails options last record failure) ∧
    (∀ log last, OneByOne options store log last →
      store.callAll (log.map fun entry => .sync options entry.1) = last ∧
      (∀ (fault : LineFault) rest,
        let result := stream options store
          (log.map (fun entry => .ok entry.1) ++ .error fault :: rest)
        result.failure = none ∧ result.progress.stats.aborted = true ∧
          result.progress.Tells log last) ∧
      ∀ record failure (rest : List (Except LineFault LibraryRecord)),
        Fails options last record failure →
        let result := stream options store
          (log.map (fun entry => .ok entry.1) ++ .ok record :: rest)
        result.failure = some failure ∧ result.progress.Tells log last) ∧
    ∀ text : String, RecordLines.read text.toUTF8.data.toList =
      (((RecordLines.linesOf text).zipIdx 1).filter fun line => ! Text.isBlankText line.1).map
        RecordLines.itemOf := by
  refine ⟨oneByOne_or_fails options store, ?_, RecordLines.read_text⟩
  intro log last all
  obtain ⟨final, taken, same, events, stats⟩ :=
    all.takesIn (rfl : (⟨store, {}, [], [], []⟩ : Progress).store = store)
  have tells : final.Tells log last := by
    refine ⟨same, events, fun kind => ?_⟩
    rw [stats, foldl_record]
    cases kind <;> simp [Progress.statsOf, EntityStats.ofOutcomes]
  have items : log.map (fun entry => (.ok entry.1 : Except LineFault LibraryRecord)) =
      (log.map Prod.fst).map .ok := List.map_map.symm
  refine ⟨all.callAll, ?_, ?_⟩
  · intro fault rest result
    have ends : result = ⟨final.abort, none⟩ := by
      change stream _ _ _ = _
      rw [stream, items, resume_append taken]
      rfl
    rw [ends]
    exact ⟨rfl, rfl, tells.store, tells.events,
      fun kind => (final.statsOf_abort kind).trans (tells.stats kind)⟩
  · intro record failure rest fails result
    have stops : final.take options record = .error failure := by
      rw [Progress.take_eq, same, fails.placeRecord]
      rfl
    have ends : result = ⟨final, some failure⟩ := by
      change stream _ _ _ = _
      rw [stream, items, resume_append taken, resume, stops]
    rw [ends]
    exact ⟨rfl, tells⟩

/-- A record that succeeds does so as a transaction of its own. -/
theorem syncRecord_of_outcome {record : LibraryRecord} {outcome : Outcome}
    (told : (syncRecord options store record).map (·.2) = .ok outcome) :
    syncRecord options store record = .ok (store.commit (.sync options record), outcome) := by
  cases step : syncRecord options store record with
  | error failure =>
    rw [step] at told
    cases told
  | ok result =>
    obtain ⟨next, became⟩ := result
    rw [step] at told
    cases told
    rw [Store.commit_of_ok (Store.attempt_of_syncRecord step)]

theorem step_of_failure {step : Step} {failure : Failure}
    (told : step.map (·.2) = .error failure) : step = .error failure := by
  cases step with
  | error other => exact congrArg Except.error (Except.error.inj told)
  | ok result => cases told

/-- A track is created, a playlist does not find its folder, and then the file breaks off, or the
snapshot of a track turns out to be damaged. -/
theorem stream_is_prefix_damagedSnapshot :
    let options : Options := { owner := some 1, actor := "cron", now := ⟨7⟩ }
    let record (id : PersistentId) : TrackRecord :=
      { persistentId := some id, location := some "file:///blue" }
    let homeless : PlaylistRecord :=
      { persistentId := some ⟨33⟩, parentPersistentId := some ⟨40⟩, name := some "Mix" }
    let store := (Store.empty.writeTrack (.ofRecord ⟨1⟩ (record ⟨1⟩))).putSnapshot .track (some 1)
      (PersistentId.hex ⟨1⟩) "?"
    let items (rest : List (Except LineFault LibraryRecord)) :=
      .ok (.track (record ⟨2⟩)) :: .ok (.playlist homeless) :: rest
    let broken := stream options store (items [.error (.notRecord 4), .ok (.track (record ⟨3⟩))])
    let failed := stream options store
      (items [.ok (.track (record ⟨1⟩)), .ok (.track (record ⟨3⟩))])
    (broken.failure = none ∧ broken.progress.stats.aborted = true ∧
      broken.progress.events = [⟨.track, ⟨2⟩, .created⟩]) ∧
    failed.failure = some unreadableSnapshot ∧ failed.progress.store = broken.progress.store := by
  intro options record homeless store items broken failed
  have created : syncRecord options store (.track (record ⟨2⟩)) =
      .ok (store.commit (.sync options (.track (record ⟨2⟩))), .created) :=
    syncRecord_of_outcome (by decide +kernel)
  let next := store.commit (.sync options (.track (record ⟨2⟩)))
  have refused : syncPlaylist options next homeless =
      .error (.noSuchFolder (PersistentId.hex ⟨33⟩) (PersistentId.hex ⟨40⟩)) :=
    step_of_failure (by decide +kernel)
  have fails : Fails options next (.track (record ⟨1⟩)) unreadableSnapshot :=
    ⟨step_of_failure (by decide +kernel), rfl⟩
  have all : OneByOne options store _ next := .taken created (.misplaced refused rfl .nil)
  obtain ⟨-, prefixes, -⟩ := stream_is_prefix options store
  obtain ⟨-, breaks, stops⟩ := prefixes _ _ all
  obtain ⟨failure, aborted, tells⟩ := breaks (.notRecord 4) [.ok (.track (record ⟨3⟩))]
  obtain ⟨failure', tells'⟩ := stops _ _ [.ok (.track (record ⟨3⟩))] fails
  exact ⟨⟨failure, aborted, tells.events⟩, failure', tells'.store.trans tells.store.symm⟩

end Sync
end MusicLibrary
