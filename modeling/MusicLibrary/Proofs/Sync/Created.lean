import Mathlib.Data.List.Induction
import MusicLibrary.Proofs.Store.StoredRows
import MusicLibrary.Proofs.Sync.Stream
import MusicLibrary.Proofs.Sync.TrackRun

/-! What created means: the owner has not seen the entry before. An entry that is there all the
same, because it was saved here or comes from another owner, is replaced as a whole; one that the
owner has a snapshot of is merged, and every other outcome leaves it alone. -/

namespace MusicLibrary

/-- What a store holds of an entry: its row, and the tracks that a playlist lists. -/
structure EntryContent where
  row : EntryRow
  tracks : List PersistentId
  deriving DecidableEq

namespace EntryContent

def ofTrack (track : Track) : EntryContent := ⟨.track track, []⟩

/-- A playlist with its list as they are stored. -/
def ofPlaylist (playlist : Playlist) : EntryContent :=
  ⟨.playlist (.ofPlaylist playlist), playlist.storedTrackIds.map PersistentId.stored⟩

/-- What a record makes by itself. -/
def ofRecord (id : PersistentId) : LibraryRecord → EntryContent
  | .track record => .ofTrack (Track.ofRecord id record).asStored
  | .playlist record => .ofPlaylist (.ofRecord id record)

end EntryContent

def Store.content? (store : Store) : EntityKind → PersistentId → Option EntryContent
  | .track, id => (store.track? id).map .ofTrack
  | .playlist, id =>
    (store.playlists.find? id.key).map fun row => ⟨.playlist row, store.trackIds id⟩

namespace Sync

/-- What comes of merging a record into an entry against the previous record of it. -/
inductive MergedContent (options : Options) (id : PersistentId) (previous : String) :
    LibraryRecord → EntryContent → EntryContent → Prop
  | track {record oldId old stored track changed}
    (base : recordOf TrackRecord.ofJson? (·.persistentId) previous = .ok (oldId, old))
    (update : stored.update? (.ofRecord oldId old) (.ofRecord id record) options.now =
      some (track, changed)) :
    MergedContent options id previous (.track record) (.ofTrack stored) (.ofTrack track.asStored)
  | playlist {record oldId old row tracks stored playlist change}
    (base : recordOf PlaylistRecord.ofJson? (·.persistentId) previous = .ok (oldId, old))
    (read : row.playlist? tracks = some stored)
    (update : stored.update? (.ofRecord oldId old) (.ofRecord id record) options.now =
      some (playlist, change)) :
    MergedContent options id previous (.playlist record) ⟨.playlist row, tracks⟩
      (.ofPlaylist playlist)

/-- What an outcome says about an entry in the stores before and behind it. -/
def Outcome.TellsContent (outcome : Outcome) (options : Options) (store next : Store)
    (record : LibraryRecord) (id : PersistentId) : Prop :=
  match outcome with
  | .created =>
    store.snapshot? record.kind options.owner id.hex = none ∧
      next.content? record.kind id = some (.ofRecord id record)
  | .updated .. =>
    ∃ previous content merged, store.snapshot? record.kind options.owner id.hex = some previous ∧
      store.content? record.kind id = some content ∧
      MergedContent options id previous record content merged ∧
      next.content? record.kind id = some merged
  | .unchanged | .skipped _ => next.content? record.kind id = store.content? record.kind id

variable {options : Options} {store next : Store} {outcome : Outcome} {id : PersistentId}

theorem content?_of_writeTrack {track : Track} (key : track.id.key = id.key) :
    (store.writeTrack track).content? .track id = some (.ofTrack track.asStored) :=
  congrArg (Option.map EntryContent.ofTrack) (store.track?_writeTrack key)

theorem content?_of_writePlaylist {playlist : Playlist}
    (write : store.writePlaylist playlist = .ok next) (key : playlist.id.key = id.key) :
    next.content? .playlist id = some (.ofPlaylist playlist) := by
  rw [Store.content?, Store.find?_of_writePlaylist write key,
    Store.trackIds_of_writePlaylist write key]
  rfl

theorem tellsContent_of_syncTrack {record : TrackRecord} (name : record.persistentId = some id)
    (h : syncTrack options store record = .ok (next, outcome)) :
    outcome.TellsContent options store next (.track record) id := by
  cases trackStep_of_syncTrack h with
  | nameless name' => rfl
  | notImportable name' refused => rfl
  | known name' seen => rfl
  | gone name' differs absent => rfl
  | settled name' differs row base nothing => rfl
  | created name' fresh =>
    cases name.symm.trans name'
    exact ⟨fresh, content?_of_writeTrack rfl⟩
  | @merged _ previous stored _ _ track _ name' differs row base update something =>
    cases name.symm.trans name'
    have same : track.id = stored.id := Track.id_of_update? update
    have key : track.id.key = id.key := by rw [same, Store.key_of_track? row]
    have content := congrArg (Option.map EntryContent.ofTrack) row
    exact ⟨previous, _, .ofTrack track.asStored, differs.seen, content, .track base update,
      content?_of_writeTrack key⟩

theorem tellsContent_of_syncPlaylist {record : PlaylistRecord}
    (name : record.persistentId = some id)
    (h : syncPlaylist options store record = .ok (next, outcome)) :
    outcome.TellsContent options store next (.playlist record) id := by
  cases playlistStep_of_syncPlaylist h with
  | nameless name' => rfl
  | system name' refused => rfl
  | known name' seen => rfl
  | gone name' differs absent => rfl
  | otherShape name' differs row base refused => rfl
  | settled name' differs row base update nothing => rfl
  | created name' fresh write =>
    cases name.symm.trans name'
    have content := content?_of_writePlaylist write rfl
    exact ⟨fresh, content⟩
  | @merged _ previous stored _ _ playlist change _ name' differs row base update something write =>
    cases name.symm.trans name'
    obtain ⟨row, found, read⟩ := Store.playlist?_eq_some.1 row
    have same : stored.id = row.id := by
      obtain ⟨smart, _, rfl⟩ := Option.map_eq_some_iff.1 read
      rfl
    have key : playlist.id.key = id.key := by
      rw [(Store.of_update? update).1, same]
      exact Table.key_of_find? found
    have content : store.content? .playlist id = some ⟨.playlist row, store.trackIds id⟩ := by
      rw [Store.content?, found]
      rfl
    have written := content?_of_writePlaylist write key
    refine ⟨previous, _, .ofPlaylist playlist, differs.seen, content,
      .playlist base read update, ?_⟩
    obtain ⟨audit, recorded⟩ := recordPlaylistChange_eq ..
    rw [recorded]
    exact written

theorem tellsContent_of_syncRecord {record : LibraryRecord} (name : record.persistentId = some id)
    (h : syncRecord options store record = .ok (next, outcome)) :
    outcome.TellsContent options store next record id := by
  cases record with
  | track record => exact tellsContent_of_syncTrack name h
  | playlist record => exact tellsContent_of_syncPlaylist name h

/-- A pruned playlist is gone. -/
theorem find?_of_prunePlaylist {id? : Option PersistentId}
    (h : prunePlaylist? options store id.hex = some (next, id?)) :
    next.playlists.find? id.key = none := by
  have parsed := PersistentId.parse?_hex id
  cases playlistPruning_of_prunePlaylist h with
  | illegible parsed' => cases parsed.symm.trans parsed'
  | absent parsed' absent =>
    cases parsed.symm.trans parsed'
    exact absent
  | removed parsed' remove =>
    cases parsed.symm.trans parsed'
    obtain ⟨_, _, rfl⟩ := Store.of_removePlaylist remove
    exact (Table.find?_erase _ _ _).trans (if_pos rfl)

end Sync

/-! Rows that an owner has seen. -/

/-- If the transaction may write the row of the entry, then it is the owner who synchronises the
entry, or the owner has a snapshot of it. -/
def Transaction.KeepsSeen (owner : Option Int64) (kind : EntityKind) (id : PersistentId)
    (store : Store) (t : Transaction) : Prop :=
  ∀ written, t.written? = some (kind, written) → written.key = id.key →
    t.baseline? = some ⟨kind, owner, id.hex⟩ ∨ store.snapshot? kind owner id.hex ≠ none

namespace Store

/-- If the row of an entry is there, then the owner has a snapshot of it. -/
def IsSeen (owner : Option Int64) (kind : EntityKind) (id : PersistentId) (store : Store) : Prop :=
  store.row? kind id ≠ none → store.snapshot? kind owner id.hex ≠ none

variable {store next : Store} {owner : Option Int64} {kind : EntityKind} {id : PersistentId}
  {t : Transaction}

theorem IsSeen.spared (seen : IsSeen owner kind id store)
    (spared : Spares owner kind id store next) : IsSeen owner kind id next := by
  intro there
  rw [spared.baseline]
  rcases spared.row with same | gone
  · rw [same] at there
    exact seen there
  · exact absurd gone there

/-- A transaction that moves the baseline of an entry leaves a snapshot, or takes out the row. -/
theorem IsSeen.own (seen : IsSeen owner kind id store)
    (own : t.baseline? = some ⟨kind, owner, id.hex⟩) : IsSeen owner kind id (store.commit t) := by
  cases attempt : store.attempt t with
  | error failure =>
    rw [commit_of_error attempt]
    exact seen
  | ok next =>
    rw [commit_of_ok attempt]
    cases t with
    | edit change => cases own
    | sync options record =>
      obtain ⟨outcome, step⟩ := syncRecord_of_attempt attempt
      obtain ⟨named, name, same⟩ := Option.map_eq_some_iff.1 own
      rw [SnapshotKey.mk.injEq] at same
      obtain ⟨rfl, rfl, hex⟩ := same
      obtain rfl := PersistentId.hex_injective hex
      -- A record that is taken in is the owner's snapshot afterwards.
      have told (baseline : Sync.IsBaseline options next record) :
          IsSeen options.owner record.kind named next := by
        obtain ⟨id', name', snapshot⟩ := baseline
        cases name.symm.trans name'
        intro _
        rw [snapshot]
        exact Option.some_ne_none _
      have described := Sync.describes_of_syncRecord step
      cases outcome with
      | skipped reason =>
        obtain rfl : next = store := described
        exact seen
      | unchanged => exact told described.1
      | created => exact told described
      | updated => exact told described
    | pruneTrack options key =>
      cases own
      obtain rfl := Except.ok.inj attempt
      have gone := Sync.track?_pruneTrack_self options store id
      intro there
      exact absurd (row?_track_eq_none.2 gone) there
    | prunePlaylist options key =>
      cases own
      obtain ⟨id?, prune⟩ := prunePlaylist_of_attempt attempt
      have gone := Sync.find?_of_prunePlaylist prune
      intro there
      exact absurd (congrArg (Option.map EntryRow.playlist) gone) there

theorem isSeen_commit (seen : IsSeen owner kind id store)
    (keeps : t.KeepsSeen owner kind id store) : IsSeen owner kind id (store.commit t) := by
  by_cases own : t.baseline? = some ⟨kind, owner, id.hex⟩
  · exact seen.own own
  by_cases writes : ∃ written, t.written? = some (kind, written) ∧ written.key = id.key
  · -- Somebody else writes the row, so the owner's snapshot is there, and it stays.
    obtain ⟨written, writes, key⟩ := writes
    intro _
    have same : (store.commit t).snapshot? kind owner id.hex = store.snapshot? kind owner id.hex :=
      snapshot?_commit_of_ne own
    rw [same]
    exact (keeps written writes key).resolve_left own
  · refine seen.spared (spares_commit ⟨own, fun written named key => ?_⟩)
    exact writes ⟨written, named, key⟩

/-- Along a run that keeps what is seen, the row is never there unseen. -/
theorem isSeen_run {ts : List Transaction}
    (keeps : ∀ before t, before ++ [t] <+: ts →
      t.KeepsSeen owner kind id (Store.empty.run before)) :
    IsSeen owner kind id (Store.empty.run ts) := by
  induction ts using List.reverseRecOn with
  | nil =>
    intro there
    cases kind <;> exact absurd rfl there
  | append_singleton earlier t ih =>
    rw [run_append]
    apply isSeen_commit
    · apply ih
      intro before t' whole
      exact keeps before t' (whole.trans (List.prefix_append earlier [t]))
    · exact keeps earlier t (List.prefix_refl _)

end Store

namespace Sync

/-- Created means that the owner sees the entry for the first time. Whatever store there is, only
then does a record replace the entry as a whole; it is merged into an entry that the owner has seen,
and otherwise leaves the entry as it is. And if nobody but the owner has ever written the row while
the owner had no snapshot of the entry, no row is there before the record is created. -/
theorem created_means_unseen {options : Options} {record : LibraryRecord} {id : PersistentId}
    (name : record.persistentId = some id) :
    (∀ store next outcome, syncRecord options store record = .ok (next, outcome) →
      outcome.TellsContent options store next record id) ∧
    ∀ calls next,
      (∀ before t, before ++ [t] <+: Store.empty.history calls →
        t.KeepsSeen options.owner record.kind id (Store.empty.run before)) →
      syncRecord options (Store.empty.callAll calls) record = .ok (next, .created) →
        (Store.empty.callAll calls).row? record.kind id = none := by
  refine ⟨fun store next outcome => tellsContent_of_syncRecord name, ?_⟩
  intro calls next keeps created
  have fresh := (tellsContent_of_syncRecord name created).1
  rw [← Store.run_history] at fresh ⊢
  have seen : Store.IsSeen options.owner record.kind id _ := Store.isSeen_run keeps
  exact Decidable.not_not.1 fun there => seen there fresh

/-- Alice sees a track and Bob's run writes over it. Her run prunes it, and then it is new to her
again. -/
theorem created_means_unseen_again :
    let alice : Options := { owner := some 1, actor := "cron", now := ⟨7⟩ }
    let bob : Options := { owner := some 2, actor := "cron", now := ⟨9⟩ }
    let record (name : String) : LibraryRecord :=
      .track { persistentId := some ⟨1⟩, location := some "file:///blue", name := some name }
    let calls : List Call := [.sync alice (record "a"), .sync bob (record "b"), .stream alice []]
    let store := Store.empty.callAll calls
    (∀ before t, before ++ [t] <+: Store.empty.history calls →
      t.KeepsSeen alice.owner .track ⟨1⟩ (Store.empty.run before)) ∧
    ∃ next, syncRecord alice store (record "c") = .ok (next, .created) ∧
      Outcome.created.TellsContent alice store next (record "c") ⟨1⟩ ∧
      store.row? .track ⟨1⟩ = none := by
  intro alice bob record calls store
  have keeps (before : List Transaction) (t : Transaction)
      (whole : before ++ [t] <+: Store.empty.history calls) :
      t.KeepsSeen alice.owner .track ⟨1⟩ (Store.empty.run before) := by
    obtain ⟨progress, history⟩ : ∃ progress, Store.empty.history calls =
        .sync alice (record "a") :: .sync bob (record "b") :: (prunings alice progress ++ []) :=
      ⟨_, rfl⟩
    rw [history, List.append_nil] at whole
    rcases before with _ | ⟨first, _ | ⟨second, rest⟩⟩
    · obtain ⟨rfl, -⟩ := List.cons_prefix_cons.1 whole
      exact fun _ _ _ => .inl rfl
    · obtain ⟨rfl, later⟩ := List.cons_prefix_cons.1 whole
      obtain ⟨rfl, -⟩ := List.cons_prefix_cons.1 later
      exact fun _ _ _ => .inr (by decide +kernel)
    · obtain ⟨-, later⟩ := List.cons_prefix_cons.1 whole
      obtain ⟨-, later⟩ := List.cons_prefix_cons.1 later
      have pruned : t ∈ prunings alice progress := later.subset (by simp)
      rcases mem_prunings pruned with ⟨key, -, rfl⟩ | ⟨key, -, rfl⟩ <;> exact nofun
  refine ⟨keeps, ?_⟩
  have means := @created_means_unseen alice (record "c") ⟨1⟩ rfl
  have step : (syncRecord alice store (record "c")).map (·.2) = .ok .created := by
    decide +kernel
  cases attempt : syncRecord alice store (record "c") with
  | error failure => simp [attempt, Except.map] at step
  | ok result =>
    obtain ⟨next, outcome⟩ := result
    obtain rfl : outcome = .created := by simpa [attempt, Except.map] using step
    exact ⟨next, rfl, means.1 store next _ attempt, means.2 calls next keeps attempt⟩

/-- A track saved by its user is replaced by a record that an owner brings for the first time: the
outcome is created, though the row was there. -/
theorem created_over_saved_track :
    let options : Options := { owner := some 1, actor := "cron", now := ⟨5⟩ }
    let saved : Track :=
      { id := ⟨1⟩, name := some "Mine", location := some "file:///1", playCount := some 7 }
    let record : LibraryRecord := .track
      { persistentId := some ⟨1⟩, name := some "Theirs", location := some "file:///1",
        playCount := some 2 }
    let store := Store.empty.callAll [.edit (.saveTrack saved "user")]
    (syncRecord options store record).map (·.2) = .ok .created ∧
      store.row? .track ⟨1⟩ = some (.track saved) ∧
      (store.commit (.sync options record)).content? .track ⟨1⟩ =
        some (.ofRecord ⟨1⟩ record) := by
  decide +kernel

end Sync

end MusicLibrary
