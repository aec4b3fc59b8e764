import MusicLibrary.Record.Lines
import MusicLibrary.Sync.Stream

/-! Histories of a store. A call is a run of transactions, each of which takes place as a whole or
leaves the store as it was; so whatever every transaction preserves holds of all stores that calls
can reach. -/

namespace MusicLibrary

/-- A change that a user makes. -/
inductive Edit where
  | saveTrack (track : Track) (actor : String)
  | deleteTrack (id : PersistentId) (actor : String)
  | savePlaylist (playlist : Playlist) (actor : String)
  | deletePlaylist (id : PersistentId) (actor : String)
  | removeTracks (id : PersistentId) (tracks : List PersistentId) (actor : String)

/-- A change that takes place as a whole or not at all. -/
inductive Transaction where
  | edit (change : Edit)
  | sync (options : Sync.Options) (record : LibraryRecord)
  | pruneTrack (options : Sync.Options) (key : String)
  | prunePlaylist (options : Sync.Options) (key : String)

/-- What can be asked of a library. -/
inductive Call where
  | edit (change : Edit)
  | sync (options : Sync.Options) (record : LibraryRecord)
  | stream (options : Sync.Options) (items : List (Except LineFault LibraryRecord))

/-- The ids by which an edit names playlists and folders. -/
def Edit.playlistIds : Edit → List PersistentId
  | .savePlaylist playlist _ => playlist.id :: playlist.parentId.toList
  | .deletePlaylist id _ | .removeTracks id _ _ => [id]
  | .saveTrack .. | .deleteTrack .. => []

def LibraryRecord.playlistIds : LibraryRecord → List PersistentId
  | .track _ => []
  | .playlist record => record.persistentId.toList ++ record.parentPersistentId.toList

/-- The ids of playlists in an item of a stream. -/
def itemPlaylistIds : Except ε LibraryRecord → List PersistentId
  | .ok record => record.playlistIds
  | .error _ => []

def Transaction.playlistIds : Transaction → List PersistentId
  | .edit change => change.playlistIds
  | .sync _ record => record.playlistIds
  | .pruneTrack .. | .prunePlaylist .. => []

def Call.playlistIds : Call → List PersistentId
  | .edit change => change.playlistIds
  | .sync _ record => record.playlistIds
  | .stream _ items => items.flatMap itemPlaylistIds

/-- Synchronises a record of either kind. -/
def Sync.syncRecord (options : Options) (store : Store) : LibraryRecord → Step
  | .track record => syncTrack options store record
  | .playlist record => syncPlaylist options store record

namespace Store

def edit (store : Store) : Edit → Except Failure Store
  | .saveTrack track actor => .ok (store.saveTrack track actor)
  | .deleteTrack id actor => store.deleteTrack id actor
  | .savePlaylist playlist actor => store.savePlaylist playlist actor
  | .deletePlaylist id actor => store.deletePlaylist id actor
  | .removeTracks id tracks actor => (store.removeTracks id tracks actor).map (·.1)

/-- The store behind a transaction, if it can take place. -/
def attempt (store : Store) : Transaction → Except Failure Store
  | .edit change => store.edit change
  | .sync options record => (Sync.syncRecord options store record).map (·.1)
  | .pruneTrack options key => .ok (Sync.pruneTrack options store key).1
  | .prunePlaylist options key =>
    match Sync.prunePlaylist? options store key with
    | some (next, _) => .ok next
    | none => .error (.folderNotEmpty key)

/-- A transaction that fails leaves the store as it was. -/
def commit (store : Store) (transaction : Transaction) : Store :=
  match store.attempt transaction with
  | .ok next => next
  | .error _ => store

def run (store : Store) (transactions : List Transaction) : Store :=
  transactions.foldl commit store

def call (store : Store) : Call → Store
  | .edit change => store.commit (.edit change)
  | .sync options record => store.commit (.sync options record)
  | .stream options items => (Sync.stream options store items).progress.store

/-- The store behind a sequence of calls. -/
def callAll (store : Store) (calls : List Call) : Store := calls.foldl call store

@[simp] theorem run_nil (store : Store) : store.run [] = store := rfl

@[simp] theorem run_cons (store : Store) (t : Transaction) (ts : List Transaction) :
    store.run (t :: ts) = (store.commit t).run ts := rfl

theorem run_append (store : Store) (ts us : List Transaction) :
    store.run (ts ++ us) = (store.run ts).run us := List.foldl_append

theorem commit_of_ok {store next : Store} {t : Transaction} (h : store.attempt t = .ok next) :
    store.commit t = next := by rw [commit, h]

theorem commit_of_error {store : Store} {t : Transaction} {failure : Failure}
    (h : store.attempt t = .error failure) : store.commit t = store := by rw [commit, h]

theorem syncRecord_of_attempt {store next : Store} {options : Sync.Options}
    {record : LibraryRecord} (h : store.attempt (.sync options record) = .ok next) :
    ∃ outcome, Sync.syncRecord options store record = .ok (next, outcome) := by
  cases step : Sync.syncRecord options store record with
  | error failure =>
    rw [attempt, step] at h
    cases h
  | ok result =>
    obtain ⟨after, outcome⟩ := result
    rw [attempt, step] at h
    cases h
    exact ⟨outcome, rfl⟩

theorem prunePlaylist_of_attempt {store next : Store} {options : Sync.Options} {key : String}
    (h : store.attempt (.prunePlaylist options key) = .ok next) :
    ∃ id?, Sync.prunePlaylist? options store key = some (next, id?) := by
  cases prune : Sync.prunePlaylist? options store key with
  | none =>
    rw [attempt, prune] at h
    cases h
  | some result =>
    obtain ⟨after, id?⟩ := result
    rw [attempt, prune] at h
    cases h
    exact ⟨id?, rfl⟩

theorem attempt_of_syncRecord {store next : Store} {options : Sync.Options}
    {record : LibraryRecord} {outcome : Sync.Outcome}
    (h : Sync.syncRecord options store record = .ok (next, outcome)) :
    store.attempt (.sync options record) = .ok next := by
  rw [attempt, h]
  rfl

theorem attempt_of_syncRecord_error {store : Store} {options : Sync.Options}
    {record : LibraryRecord} {failure : Failure}
    (h : Sync.syncRecord options store record = .error failure) :
    store.attempt (.sync options record) = .error failure := by
  rw [attempt, h]
  rfl

/-- What every transaction of a run preserves holds behind the run. -/
theorem run_induction {P : Store → Prop} {ts : List Transaction}
    (step : ∀ t ∈ ts, ∀ store, P store → P (store.commit t)) {store : Store} (start : P store) :
    P (store.run ts) := by
  induction ts generalizing store with
  | nil => exact start
  | cons t ts ih =>
    apply ih
    · intro u hu
      exact step u (List.mem_cons_of_mem t hu)
    · exact step t List.mem_cons_self store start

end Store

namespace Sync

/-- The transactions that prune playlists, round by round. -/
def playlistPrunings (options : Options) (store : Store) (pending : List String) :
    List Transaction :=
  let round := pruneRound options store pending
  pending.map (.prunePlaylist options) ++
    if round.blocked.length < pending.length then
      playlistPrunings options round.store round.blocked
    else []
termination_by pending.length

/-- The transactions that prune what a stream did not mention. -/
def prunings (options : Options) (progress : Progress) : List Transaction :=
  let tracks := staleIds options progress.store .track progress.seenTracks
  let store := (pruneTracks options progress.store tracks).1
  tracks.map (.pruneTrack options) ++
    playlistPrunings options store (staleIds options store .playlist progress.seenPlaylists)

/-- The transactions of a stream from some progress on. -/
def transactions (options : Options) (progress : Progress) :
    List (Except ε LibraryRecord) → List Transaction
  | [] => prunings options progress
  | .error _ :: _ => []
  | .ok record :: rest =>
    .sync options record ::
      match progress.take options record with
      | .ok progress => transactions options progress rest
      | .error _ => []

theorem commit_pruneTrack (options : Options) (store : Store) (key : String) :
    store.commit (.pruneTrack options key) = (pruneTrack options store key).1 := rfl

theorem commit_prunePlaylist {options : Options} {store next : Store} {key : String}
    {id? : Option PersistentId} (h : prunePlaylist? options store key = some (next, id?)) :
    store.commit (.prunePlaylist options key) = next := by
  apply Store.commit_of_ok
  rw [Store.attempt, h]

theorem commit_prunePlaylist_blocked {options : Options} {store : Store} {key : String}
    (h : prunePlaylist? options store key = none) :
    store.commit (.prunePlaylist options key) = store := by
  have failed : store.attempt (.prunePlaylist options key) = .error (.folderNotEmpty key) := by
    rw [Store.attempt, h]
  exact Store.commit_of_error failed

theorem run_pruneTracks (options : Options) (store : Store) (keys : List String) :
    store.run (keys.map (.pruneTrack options)) = (pruneTracks options store keys).1 := by
  induction keys generalizing store with
  | nil => rfl
  | cons key rest ih =>
    rw [List.map_cons, Store.run_cons, commit_pruneTrack, ih, pruneTracks]

theorem run_pruneRound (options : Options) (store : Store) (keys : List String) :
    store.run (keys.map (.prunePlaylist options)) = (pruneRound options store keys).store := by
  induction keys generalizing store with
  | nil => rfl
  | cons key rest ih =>
    rw [List.map_cons, Store.run_cons, pruneRound]
    cases h : prunePlaylist? options store key with
    | none => rw [commit_prunePlaylist_blocked h, ih]
    | some step =>
      obtain ⟨next, id?⟩ := step
      rw [commit_prunePlaylist h, ih]

theorem run_playlistPrunings (options : Options) (store : Store) (pending : List String) :
    store.run (playlistPrunings options store pending) =
      (prunePlaylists options store pending).1 := by
  induction store, pending using prunePlaylists.induct options with
  | case1 store pending round fewer next ids h ih =>
    rw [playlistPrunings, prunePlaylists, Store.run_append, run_pruneRound, if_pos fewer,
      if_pos fewer]
    exact ih
  | case2 store pending round stuck =>
    rw [playlistPrunings, prunePlaylists, Store.run_append, run_pruneRound, if_neg stuck,
      if_neg stuck, Store.run_nil]

theorem run_prunings (options : Options) (progress : Progress) :
    progress.store.run (prunings options progress) = (progress.prune options).store := by
  rw [prunings, Store.run_append, run_pruneTracks, run_playlistPrunings]
  rfl

/-- What has to wait was to be pruned. -/
theorem mem_of_mem_blocked {options : Options} {store : Store} {keys : List String} {key : String}
    (h : key ∈ (pruneRound options store keys).blocked) : key ∈ keys := by
  induction keys generalizing store with
  | nil => exact h
  | cons head rest ih =>
    unfold pruneRound at h
    cases step : prunePlaylist? options store head with
    | none =>
      rw [step] at h
      rcases List.mem_cons.1 h with rfl | h
      · exact List.mem_cons_self
      · exact List.mem_cons_of_mem head (ih h)
    | some result =>
      rw [step] at h
      exact List.mem_cons_of_mem head (ih h)

theorem mem_playlistPrunings {options : Options} {store : Store} {pending : List String}
    {t : Transaction} (h : t ∈ playlistPrunings options store pending) :
    ∃ key ∈ pending, t = .prunePlaylist options key := by
  induction store, pending using prunePlaylists.induct options with
  | case1 store pending round fewer next ids _ ih =>
    rw [playlistPrunings, if_pos fewer] at h
    rcases List.mem_append.1 h with h | h
    · obtain ⟨key, mem, rfl⟩ := List.mem_map.1 h
      exact ⟨key, mem, rfl⟩
    · obtain ⟨key, mem, rfl⟩ := ih h
      exact ⟨key, mem_of_mem_blocked mem, rfl⟩
  | case2 store pending round stuck =>
    rw [playlistPrunings, if_neg stuck, List.append_nil] at h
    obtain ⟨key, mem, rfl⟩ := List.mem_map.1 h
    exact ⟨key, mem, rfl⟩

theorem not_mem_of_mem_staleIds {options : Options} {store : Store} {kind : EntityKind}
    {seen : List String} {key : String} (h : key ∈ staleIds options store kind seen) :
    key ∉ seen := by
  simpa using (List.mem_filter.1 h).2

/-- What is pruned was not seen. -/
theorem mem_prunings {options : Options} {progress : Progress} {t : Transaction}
    (h : t ∈ prunings options progress) :
    (∃ key, key ∉ progress.seenTracks ∧ t = .pruneTrack options key) ∨
      ∃ key, key ∉ progress.seenPlaylists ∧ t = .prunePlaylist options key := by
  rcases List.mem_append.1 h with h | h
  · obtain ⟨key, mem, rfl⟩ := List.mem_map.1 h
    exact .inl ⟨key, not_mem_of_mem_staleIds mem, rfl⟩
  · obtain ⟨key, mem, rfl⟩ := mem_playlistPrunings h
    exact .inr ⟨key, not_mem_of_mem_staleIds mem, rfl⟩

/-- A record that is taken in changes the store as it does on its own. -/
theorem store_take {options : Options} {progress next : Progress} {record : LibraryRecord}
    (h : progress.take options record = .ok next) :
    next.store = progress.store.commit (.sync options record) := by
  cases record with
  | track record =>
    simp only [Progress.take, Progress.takeTrack] at h
    cases step : syncTrack options progress.store record with
    | error failure => simp [step, bind, Except.bind] at h
    | ok result =>
      simp only [step, bind, Except.bind, pure, Except.pure, Except.ok.injEq] at h
      rw [← h, Store.commit, Store.attempt, syncRecord, step]
      rfl
  | playlist record =>
    simp only [Progress.take, Progress.takePlaylist, Progress.placePlaylist] at h
    cases step : syncPlaylist options progress.store record with
    | error failure =>
      rw [Store.commit, Store.attempt, syncRecord, step]
      cases misplaced : failure.isMisplaced with
      | false => simp [step, misplaced, bind, Except.bind] at h
      | true =>
        simp only [step, misplaced, if_true, bind, Except.bind, pure, Except.pure,
          Except.ok.injEq] at h
        rw [← h]
        rfl
    | ok result =>
      simp only [step, bind, Except.bind, pure, Except.pure, Except.ok.injEq] at h
      rw [← h, Store.commit, Store.attempt, syncRecord, step]
      rfl

/-- A record that stops the stream leaves the store as it was. -/
theorem commit_of_take_error {options : Options} {progress : Progress} {record : LibraryRecord}
    {failure : Failure} (h : progress.take options record = .error failure) :
    progress.store.commit (.sync options record) = progress.store := by
  have step : ∃ failure, syncRecord options progress.store record = .error failure := by
    cases record with
    | track record =>
      cases step : syncTrack options progress.store record with
      | error failure => exact ⟨failure, step⟩
      | ok result => simp [Progress.take, Progress.takeTrack, step, bind, Except.bind, pure,
          Except.pure] at h
    | playlist record =>
      cases step : syncPlaylist options progress.store record with
      | error failure => exact ⟨failure, step⟩
      | ok result => simp [Progress.take, Progress.takePlaylist, Progress.placePlaylist, step, bind,
          Except.bind, pure, Except.pure] at h
  obtain ⟨failure, step⟩ := step
  exact Store.commit_of_error (Store.attempt_of_syncRecord_error step)

/-- A stream changes the store by its transactions, one after the other. -/
theorem run_transactions (options : Options) (progress : Progress)
    (items : List (Except ε LibraryRecord)) :
    progress.store.run (transactions options progress items) =
      (resume options progress items).progress.store := by
  induction items generalizing progress with
  | nil => exact run_prunings options progress
  | cons item rest ih =>
    cases item with
    | error fault => rfl
    | ok record =>
      rw [transactions, resume, Store.run_cons]
      cases h : progress.take options record with
      | ok next =>
        rw [← store_take h]
        exact ih next
      | error failure => exact commit_of_take_error h

end Sync

namespace Store

/-- The transactions that a call is made of. -/
def transactionsOf (store : Store) : Call → List Transaction
  | .edit change => [.edit change]
  | .sync options record => [.sync options record]
  | .stream options items => Sync.transactions options ⟨store, {}, [], [], []⟩ items

/-- The transactions of a sequence of calls. -/
def history (store : Store) : List Call → List Transaction
  | [] => []
  | c :: rest => store.transactionsOf c ++ history (store.call c) rest

theorem run_transactionsOf (store : Store) (c : Call) :
    store.run (store.transactionsOf c) = store.call c := by
  cases c with
  | edit change => rfl
  | sync options record => rfl
  | stream options items => exact Sync.run_transactions options ⟨store, {}, [], [], []⟩ items

theorem run_history (store : Store) (calls : List Call) :
    store.run (store.history calls) = store.callAll calls := by
  induction calls generalizing store with
  | nil => rfl
  | cons c rest ih =>
    rw [history, run_append, run_transactionsOf, ih]
    rfl

theorem playlistIds_of_mem_prunings {options : Sync.Options} {progress : Sync.Progress}
    {t : Transaction} (h : t ∈ Sync.prunings options progress) : t.playlistIds = [] := by
  rcases Sync.mem_prunings h with ⟨key, _, rfl⟩ | ⟨key, _, rfl⟩ <;> rfl

theorem mem_playlistIds_of_mem_transactions {options : Sync.Options} {progress : Sync.Progress}
    {items : List (Except ε LibraryRecord)} {t : Transaction} {id : PersistentId}
    (h : t ∈ Sync.transactions options progress items) (named : id ∈ t.playlistIds) :
    id ∈ items.flatMap itemPlaylistIds := by
  induction items generalizing progress with
  | nil =>
    rw [playlistIds_of_mem_prunings h] at named
    cases named
  | cons item rest ih =>
    cases item with
    | error fault => cases h
    | ok record =>
      rw [List.flatMap_cons, List.mem_append]
      rcases List.mem_cons.1 h with rfl | h
      · exact .inl named
      · split at h
        · exact .inr (ih h)
        · cases h

/-- A transaction names no playlist that its call does not name. -/
theorem mem_playlistIds_of_mem_history {store : Store} {calls : List Call} {t : Transaction}
    {id : PersistentId} (h : t ∈ store.history calls) (named : id ∈ t.playlistIds) :
    ∃ c ∈ calls, id ∈ c.playlistIds := by
  induction calls generalizing store with
  | nil => cases h
  | cons c rest ih =>
    rcases List.mem_append.1 h with h | h
    · refine ⟨c, List.mem_cons_self, ?_⟩
      cases c with
      | edit change =>
        rw [List.mem_singleton.1 h] at named
        exact named
      | sync options record =>
        rw [List.mem_singleton.1 h] at named
        exact named
      | stream options items => exact mem_playlistIds_of_mem_transactions h named
    · obtain ⟨d, mem, named⟩ := ih h
      exact ⟨d, List.mem_cons_of_mem c mem, named⟩

end Store

end MusicLibrary
