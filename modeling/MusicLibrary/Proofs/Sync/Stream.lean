import MusicLibrary.Proofs.Sync.Frame

/-! A stream that comes to its end. It takes its records in one after the other and then prunes
what it did not mention; so what it prunes is known from the records alone. -/

namespace MusicLibrary.Sync

/-- Synchronises a record of a stream: a playlist that has no place among the folders is skipped. -/
def placeRecord (options : Options) (store : Store) : LibraryRecord → Step
  | .track record => syncTrack options store record
  | .playlist record => Progress.placePlaylist options store record

/-- What became of the records of a stream, as far as it came. -/
def outcomes (options : Options) (store : Store) : List (Except ε LibraryRecord) → List Outcome
  | [] => []
  | .error _ :: _ => []
  | .ok record :: rest =>
    match placeRecord options store record with
    | .ok (next, outcome) => outcome :: outcomes options next rest
    | .error _ => []

/-- The stream was read to its end, and no failure stopped it. -/
def Result.IsComplete (result : Result) : Prop :=
  result.failure = none ∧ result.progress.stats.aborted = false

instance (result : Result) : Decidable result.IsComplete := inferInstanceAs (Decidable (_ ∧ _))

namespace Progress

/-- The ids of the records of a kind so far. -/
def seen (progress : Progress) : EntityKind → List String
  | .track => progress.seenTracks
  | .playlist => progress.seenPlaylists

def statsOf (progress : Progress) : EntityKind → EntityStats
  | .track => progress.stats.tracks
  | .playlist => progress.stats.playlists

/-- The progress behind a record of which it is known what became. -/
def note (progress : Progress) (record : LibraryRecord) (store : Store) (outcome : Outcome) :
    Progress :=
  match record with
  | .track record => { progress with
    store
    stats := { progress.stats with tracks := progress.stats.tracks.record outcome }
    events := progress.events ++ outcome.events .track record.persistentId
    seenTracks := see record.persistentId progress.seenTracks }
  | .playlist record => { progress with
    store
    stats := { progress.stats with playlists := progress.stats.playlists.record outcome }
    events := progress.events ++ outcome.events .playlist record.persistentId
    seenPlaylists := see record.persistentId progress.seenPlaylists }

theorem take_eq (options : Options) (progress : Progress) (record : LibraryRecord) :
    progress.take options record = (placeRecord options progress.store record).map
      fun result => progress.note record result.1 result.2 := by
  cases record with
  | track record => cases step : syncTrack options progress.store record <;>
      simp [take, takeTrack, placeRecord, step, bind, Except.bind, pure, Except.pure, Except.map,
        note]
  | playlist record => cases step : placePlaylist options progress.store record <;>
      simp [take, takePlaylist, placeRecord, step, bind, Except.bind, pure, Except.pure,
        Except.map, note]

section

variable (progress : Progress) (record : LibraryRecord) (store : Store) (outcome : Outcome)

@[simp] theorem store_note : (progress.note record store outcome).store = store := by
  cases record <;> rfl

@[simp] theorem aborted_note :
    (progress.note record store outcome).stats.aborted = progress.stats.aborted := by
  cases record <;> rfl

@[simp] theorem events_note : (progress.note record store outcome).events =
    progress.events ++ outcome.events record.kind record.persistentId := by
  cases record <;> rfl

theorem statsOf_note (kind : EntityKind) : (progress.note record store outcome).statsOf kind =
    if kind = record.kind then (progress.statsOf kind).record outcome
    else progress.statsOf kind := by
  cases record <;> cases kind <;> rfl

theorem seen_note (kind : EntityKind) : (progress.note record store outcome).seen kind =
    if kind = record.kind then see record.persistentId (progress.seen kind)
    else progress.seen kind := by
  cases record <;> cases kind <;> rfl

end

theorem mem_see {id : Option PersistentId} {seen : List String} {key : String} :
    key ∈ see id seen ↔ (∃ named, id = some named ∧ key = named.hex) ∨ key ∈ seen := by
  cases id <;> simp [see]

theorem mem_seen_note {progress : Progress} {record : LibraryRecord} {store : Store}
    {outcome : Outcome} {kind : EntityKind} {key : String} :
    key ∈ (progress.note record store outcome).seen kind ↔
      (∃ id, record.subject? = some (kind, id) ∧ key = id.hex) ∨ key ∈ progress.seen kind := by
  rw [seen_note]
  by_cases same : kind = record.kind
  · subst same
    simp [mem_see, LibraryRecord.subject?]
  · have none (id : PersistentId) : record.subject? ≠ some (kind, id) := by
      intro named
      obtain ⟨_, _, eq⟩ := Option.map_eq_some_iff.1 named
      exact same (congrArg Prod.fst eq).symm
    simp [same, none]

/-- Takes records in one after the other. -/
def takeAll (options : Options) (progress : Progress) :
    List LibraryRecord → Except Failure Progress
  | [] => .ok progress
  | record :: rest => do takeAll options (← progress.take options record) rest

variable {options : Options} {progress next last : Progress} {record : LibraryRecord}
  {records : List LibraryRecord}

theorem takeAll_cons (step : progress.take options record = .ok next)
    (rest : List LibraryRecord) :
    takeAll options progress (record :: rest) = takeAll options next rest := by
  rw [takeAll, step]
  rfl

/-- A record that is taken in is noted with what became of it. -/
theorem note_of_take (h : progress.take options record = .ok next) :
    ∃ store outcome, placeRecord options progress.store record = .ok (store, outcome) ∧
      next = progress.note record store outcome := by
  rw [take_eq] at h
  cases step : placeRecord options progress.store record with
  | error failure =>
    rw [step] at h
    cases h
  | ok result =>
    rw [step] at h
    cases h
    exact ⟨result.1, result.2, rfl, rfl⟩

theorem take_of_placeRecord {store : Store} {outcome : Outcome}
    (h : placeRecord options progress.store record = .ok (store, outcome)) :
    progress.take options record = .ok (progress.note record store outcome) := by
  rw [take_eq, h]
  rfl

theorem store_takeAll (h : takeAll options progress records = .ok last) :
    last.store = progress.store.run (records.map (.sync options)) := by
  induction records generalizing progress with
  | nil =>
    cases h
    rfl
  | cons record rest ih =>
    obtain ⟨next, step, h⟩ := bind_eq_ok h
    rw [ih h, store_take step]
    rfl

theorem aborted_takeAll (h : takeAll options progress records = .ok last) :
    last.stats.aborted = progress.stats.aborted := by
  induction records generalizing progress with
  | nil =>
    cases h
    rfl
  | cons record rest ih =>
    obtain ⟨next, step, h⟩ := bind_eq_ok h
    obtain ⟨store, outcome, _, rfl⟩ := note_of_take step
    rw [ih h, aborted_note]

/-- What was seen are the ids of the records. -/
theorem mem_seen_takeAll (h : takeAll options progress records = .ok last) {kind : EntityKind}
    {key : String} :
    key ∈ last.seen kind ↔
      (∃ record ∈ records, ∃ id, record.subject? = some (kind, id) ∧ key = id.hex) ∨
        key ∈ progress.seen kind := by
  induction records generalizing progress with
  | nil =>
    cases h
    simp
  | cons record rest ih =>
    obtain ⟨next, step, h⟩ := bind_eq_ok h
    obtain ⟨store, outcome, _, rfl⟩ := note_of_take step
    rw [ih h, mem_seen_note]
    simp only [List.mem_cons, exists_eq_or_imp, or_assoc, or_left_comm]

end Progress

variable {options : Options} {progress last : Progress} {records : List LibraryRecord}

/-- Records that are taken in, and what comes behind them. -/
theorem resume_append (all : Progress.takeAll options progress records = .ok last)
    (items : List (Except ε LibraryRecord)) :
    resume options progress (records.map .ok ++ items) = resume options last items := by
  induction records generalizing progress with
  | nil =>
    cases all
    rfl
  | cons record rest ih =>
    obtain ⟨next, step, later⟩ := bind_eq_ok all
    rw [List.map_cons, List.cons_append, resume, step]
    exact ih later

/-- A stream whose records are all taken in prunes what they do not mention. -/
theorem resume_of_takeAll (h : Progress.takeAll options progress records = .ok last) :
    resume options progress (records.map (.ok : LibraryRecord → Except ε LibraryRecord)) =
      ⟨last.prune options, none⟩ := by
  have whole := resume_append h ([] : List (Except ε LibraryRecord))
  rw [List.append_nil] at whole
  exact whole

theorem isComplete_of_takeAll (running : progress.stats.aborted = false)
    (h : Progress.takeAll options progress records = .ok last) :
    (resume options progress
      (records.map (.ok : LibraryRecord → Except ε LibraryRecord))).IsComplete := by
  rw [resume_of_takeAll h]
  exact ⟨rfl, (Progress.aborted_takeAll h).trans running⟩

/-- The exits of a stream, one constructor each: it comes to its end, breaks off, or a record
fails. -/
inductive StreamExit (options : Options) (progress : Progress) :
    List (Except ε LibraryRecord) → Result → Prop
  | complete {taken final} (all : Progress.takeAll options progress taken = .ok final) :
    StreamExit options progress (taken.map .ok) ⟨final.prune options, none⟩
  | aborted {taken final fault rest}
    (all : Progress.takeAll options progress taken = .ok final) :
    StreamExit options progress (taken.map .ok ++ .error fault :: rest) ⟨final.abort, none⟩
  | failed {taken final record failure rest}
    (all : Progress.takeAll options progress taken = .ok final)
    (stops : final.take options record = .error failure) :
    StreamExit options progress (taken.map .ok ++ .ok record :: rest) ⟨final, some failure⟩

/-- Every stream ends by one of its exits. -/
theorem streamExit_resume (options : Options) (progress : Progress)
    (items : List (Except ε LibraryRecord)) :
    StreamExit options progress items (resume options progress items) := by
  have nothing (progress : Progress) : Progress.takeAll options progress [] = .ok progress := rfl
  induction items generalizing progress with
  | nil => exact .complete (nothing progress)
  | cons item rest ih =>
    cases item with
    | error fault => exact .aborted (nothing progress)
    | ok record =>
      rw [resume]
      cases step : progress.take options record with
      | error failure => exact .failed (nothing progress) step
      | ok next =>
        have exit := ih next
        dsimp only
        generalize resume options next rest = result at exit
        cases exit with
        | complete all => exact .complete ((Progress.takeAll_cons step _).trans all)
        | aborted all => exact .aborted ((Progress.takeAll_cons step _).trans all)
        | failed all stops => exact .failed ((Progress.takeAll_cons step _).trans all) stops

/-- A complete stream has taken in all of its records. -/
theorem takeAll_of_isComplete {items : List (Except ε LibraryRecord)}
    (complete : (resume options progress items).IsComplete) :
    ∃ records last, items = records.map .ok ∧
      Progress.takeAll options progress records = .ok last := by
  have exit := streamExit_resume options progress items
  generalize resume options progress items = result at exit complete
  cases exit with
  | complete all => exact ⟨_, _, rfl, all⟩
  | aborted all => cases complete.2
  | failed all stops => cases complete.1

/-! The transactions of a stream. -/

/-- Pruning writes no row, and moves only the snapshot of an entry that was not seen. -/
theorem baseline?_of_mem_prunings {t : Transaction} (h : t ∈ prunings options progress) :
    t.written? = none ∧
      ∃ kind key, t.baseline? = some ⟨kind, options.owner, key⟩ ∧ key ∉ progress.seen kind := by
  rcases mem_prunings h with ⟨key, unseen, rfl⟩ | ⟨key, unseen, rfl⟩
  · exact ⟨rfl, .track, key, rfl, unseen⟩
  · exact ⟨rfl, .playlist, key, rfl, unseen⟩

/-- Pruning spares an entry that was seen. -/
theorem isForeign_of_mem_prunings {owner : Option Int64} {kind : EntityKind} {id : PersistentId}
    {t : Transaction} (seen : id.hex ∈ progress.seen kind) (h : t ∈ prunings options progress) :
    t.IsForeign owner kind id := by
  obtain ⟨nothing, kind', key, baseline, unseen⟩ := baseline?_of_mem_prunings h
  refine ⟨?_, ?_⟩
  · intro own
    cases baseline.symm.trans own
    exact unseen seen
  · intro named written
    cases nothing.symm.trans written

/-- A transaction of a stream synchronises one of its records, or prunes behind all of them. -/
theorem mem_transactions {items : List (Except ε LibraryRecord)} {t : Transaction}
    (h : t ∈ transactions options progress items) :
    (∃ record, .ok record ∈ items ∧ t = .sync options record) ∨
      ∃ records last, items = records.map .ok ∧
        Progress.takeAll options progress records = .ok last ∧ t ∈ prunings options last := by
  induction items generalizing progress with
  | nil => exact .inr ⟨[], progress, rfl, rfl, h⟩
  | cons item rest ih =>
    cases item with
    | error fault => cases h
    | ok record =>
      rcases List.mem_cons.1 h with rfl | h
      · exact .inl ⟨record, List.mem_cons_self, rfl⟩
      · cases step : progress.take options record with
        | error failure =>
          rw [step] at h
          cases h
        | ok next =>
          rw [step] at h
          rcases ih h with ⟨later, mem, rfl⟩ | ⟨records, last, rfl, all, pruned⟩
          · exact .inl ⟨later, List.mem_cons_of_mem _ mem, rfl⟩
          · exact .inr ⟨record :: records, last, rfl, (Progress.takeAll_cons step _).trans all,
              pruned⟩

end MusicLibrary.Sync
