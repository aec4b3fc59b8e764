import MusicLibrary.Proofs.Store.ListModel

/-! Which ids reach the lists. Of the ids by which a call names entries, those that transactions do
something to lists by are among them, be it at once or when an entry is pruned later on. Main
statement: the lists of a library follow what was done to them, throughout all calls. -/

namespace MusicLibrary

open PersistentId (highBit)

/-- The ids of entries by which an edit may do something to lists. -/
def Edit.listIds : Edit → List PersistentId
  | .saveTrack .. => []
  | .deleteTrack id _ | .deletePlaylist id _ | .removeTracks id _ _ => [id]
  | .savePlaylist playlist _ => playlist.id :: playlist.trackIds

def LibraryRecord.listIds : LibraryRecord → List PersistentId
  | .track record => record.persistentId.toList
  | .playlist record => record.persistentId.toList ++ record.trackIds

def itemListIds : Except ε LibraryRecord → List PersistentId
  | .ok record => record.listIds
  | .error _ => []

def Transaction.listIds : Transaction → List PersistentId
  | .edit change => change.listIds
  | .sync _ record => record.listIds
  | .pruneTrack _ key | .prunePlaylist _ key => (PersistentId.parse? key).toList

def Call.listIds : Call → List PersistentId
  | .edit change => change.listIds
  | .sync _ record => record.listIds
  | .stream _ items => items.flatMap itemListIds

namespace Playlist

variable {id : PersistentId}

/-- A merge brings no track that neither side lists. -/
theorem mem_mergedTrackIds {stored old new : List PersistentId}
    (mem : id ∈ (mergedTrackIds stored old new).1) : id ∈ stored ∨ id ∈ new := by
  unfold mergedTrackIds at mem
  split at mem
  · exact .inl mem
  · split at mem
    · exact .inr mem
    · have counted := (Merge.count_threeWay old stored new).2
      generalize Merge.threeWay old stored new = result at counted mem
      obtain ⟨merged, applied⟩ := result
      cases applied with
      | false => exact .inr (counted ▸ mem)
      | true =>
        have total := counted id
        have own : 0 < merged.count id := List.count_pos_iff.2 mem
        rw [← List.count_pos_iff, ← List.count_pos_iff]
        omega

theorem mem_trackIds_of_update? {stored old new result : Playlist} {now : Timestamp}
    {change : Change} (h : stored.update? old new now = some (result, change))
    (mem : id ∈ result.trackIds) : id ∈ stored.trackIds ∨ id ∈ new.trackIds := by
  have merged : (mergedTrackIds stored.trackIds old.trackIds new.trackIds).1 = result.trackIds :=
    congrArg Prod.fst (mergedTrackIds_of_update? h)
  rw [← merged] at mem
  exact mem_mergedTrackIds mem

theorem mem_trackIds_ofRecord {name : PersistentId} {record : PlaylistRecord}
    (mem : id ∈ (ofRecord name record).trackIds) : id ∈ record.trackIds := by
  rw [ofRecord] at mem
  split at mem
  · cases mem
  · exact mem

end Playlist

/-- A playlist that is written is the record, or the stored one after a change to the record. -/
theorem Sync.of_written? {options : Options} {store : Store} {record : PlaylistRecord}
    {playlist : Playlist} (h : written? options store record = some playlist) :
    ∃ id, record.persistentId = some id ∧ (playlist = .ofRecord id record ∨
      ∃ stored old change, store.playlist? id = .ok (some stored) ∧
        stored.update? old (.ofRecord id record) options.now = some (playlist, change)) := by
  obtain ⟨id, name, h⟩ := Option.bind_eq_some_iff.1 h
  refine ⟨id, name, ?_⟩
  split at h
  · cases h
    exact .inl rfl
  · obtain ⟨previous, -, h⟩ := Option.bind_eq_some_iff.1 h
    obtain ⟨⟨oldId, old⟩, -, h⟩ := Option.bind_eq_some_iff.1 h
    obtain ⟨stored, row, h⟩ := Option.bind_eq_some_iff.1 h
    obtain ⟨⟨result, change⟩, update, h⟩ := Option.bind_eq_some_iff.1 h
    cases h
    refine .inr ⟨stored, .ofRecord oldId old, change, ?_, update⟩
    cases read : store.playlist? id with
    | error failure =>
      rw [read] at row
      cases row
    | ok row? =>
      rw [read] at row
      exact congrArg Except.ok (Option.some.inj (Option.join_eq_some_iff.1 row))
  · cases h

namespace Store

variable {store : Store} {t : Transaction}

theorem highBit_not_mem_written {options : Sync.Options} {record : PlaylistRecord}
    {playlist : Playlist} (stored : store.IsStored)
    (kept : highBit ∉ (LibraryRecord.playlist record).listIds)
    (written : Sync.written? options store record = some playlist) :
    highBit ∉ (ListAct.write playlist).ids := by
  obtain ⟨id, name, source⟩ := Sync.of_written? written
  have listed : highBit ∉ record.trackIds := fun mem => kept (List.mem_append_right _ mem)
  have low : id ≠ highBit := by
    rintro rfl
    exact kept (List.mem_append_left _ (by rw [name]; exact List.mem_cons_self))
  intro mem
  rcases source with rfl | ⟨before, old, change, read, update⟩
  · rcases List.mem_cons.1 mem with same | mem
    · exact low same.symm
    · exact listed (Playlist.mem_trackIds_ofRecord mem)
  · rcases List.mem_cons.1 mem with same | mem
    · obtain ⟨row, found, row_id, -⟩ := of_playlist? read
      obtain ⟨source, rfl⟩ := stored.rows row (Table.mem_of_find? found)
      rw [(of_update? update).1, row_id] at same
      exact PersistentId.stored_ne_highBit source.id same.symm
    · rcases Playlist.mem_trackIds_of_update? update mem with mem | mem
      · rw [trackIds_of_playlist? read] at mem
        exact stored.highBit_not_mem id mem
      · exact listed (Playlist.mem_trackIds_ofRecord mem)

/-- What a transaction does to lists it does by its own ids. -/
theorem highBit_not_mem_listAct (stored : store.IsStored) (kept : highBit ∉ t.listIds) :
    highBit ∉ (store.listAct t).ids := by
  have nothing : highBit ∉ ListAct.keep.ids := List.not_mem_nil
  unfold listAct
  cases store.attempt t with
  | error failure => exact nothing
  | ok next =>
    cases t with
    | edit change =>
      cases change with
      | saveTrack => exact nothing
      | deleteTrack | savePlaylist | deletePlaylist | removeTracks => exact kept
    | sync options record =>
      cases record with
      | track record => exact nothing
      | playlist record =>
        cases written : Sync.written? options store record with
        | none =>
          simp only [written]
          exact nothing
        | some playlist =>
          simp only [written]
          exact highBit_not_mem_written stored kept written
    | pruneTrack options key | prunePlaylist options key =>
      rw [Transaction.listIds] at kept
      cases parsed : PersistentId.parse? key with
      | none =>
        simp only [parsed]
        exact nothing
      | some id =>
        simp only [parsed]
        rw [parsed] at kept
        exact kept

/-! Throughout all calls. -/

/-- Snapshots are of records, and none is of the id that is not kept. -/
structure SnapshotsAreKept (store : Store) : Prop where
  records : store.SnapshotsAreRecords
  low : ∀ kind owner, store.snapshot? kind owner highBit.hex = none

theorem SnapshotsAreKept.commit (h : store.SnapshotsAreKept) (kept : highBit ∉ t.listIds) :
    (store.commit t).SnapshotsAreKept := by
  refine ⟨snapshotsAreRecords_commit h.records t, ?_⟩
  intro kind owner
  have other : t.baseline? ≠ some ⟨kind, owner, highBit.hex⟩ := by
    intro own
    apply kept
    cases t with
    | edit change => cases own
    | sync options record =>
      obtain ⟨id, name, same⟩ := Option.map_eq_some_iff.1 own
      rw [SnapshotKey.mk.injEq] at same
      obtain rfl := PersistentId.hex_injective same.2.2
      cases record with
      | track record => exact Option.mem_toList.2 name
      | playlist record => exact List.mem_append_left _ (Option.mem_toList.2 name)
    | pruneTrack options key | prunePlaylist options key =>
      cases own
      exact Option.mem_toList.2 (PersistentId.parse?_hex highBit)
  exact (snapshot?_commit_of_ne other).trans (h.low kind owner)

theorem SnapshotsAreKept.run (h : store.SnapshotsAreKept) {ts : List Transaction}
    (kept : ∀ t ∈ ts, highBit ∉ t.listIds) : (store.run ts).SnapshotsAreKept := by
  apply run_induction
  · intro t mem store h
    exact h.commit (kept t mem)
  · exact h

/-- What is pruned has a snapshot. -/
theorem known_of_mem_prunings {options : Sync.Options} {progress : Sync.Progress}
    (h : t ∈ Sync.prunings options progress) :
    ∃ kind key, progress.store.snapshot? kind options.owner key ≠ none ∧
      t.listIds = (PersistentId.parse? key).toList := by
  rcases List.mem_append.1 h with h | h
  · obtain ⟨key, stale, rfl⟩ := List.mem_map.1 h
    exact ⟨.track, key, (Sync.mem_staleIds.1 stale).1, rfl⟩
  · obtain ⟨key, stale, rfl⟩ := Sync.mem_playlistPrunings h
    refine ⟨.playlist, key, ?_, rfl⟩
    have known := (Sync.mem_staleIds.1 stale).1
    rwa [Sync.snapshot?_playlist_pruneTracks] at known

theorem highBit_not_mem_prunings {options : Sync.Options} {progress : Sync.Progress}
    (kept : progress.store.SnapshotsAreKept) (h : t ∈ Sync.prunings options progress) :
    highBit ∉ t.listIds := by
  obtain ⟨kind, key, known, ids⟩ := known_of_mem_prunings h
  obtain ⟨data, found⟩ := Option.ne_none_iff_exists'.1 known
  obtain ⟨_, id, _, _, rfl, _⟩ := kept.records _ _ _ _ found
  rw [ids, PersistentId.parse?_hex, Option.toList_some, List.mem_singleton]
  rintro rfl
  exact known (kept.low kind options.owner)

theorem highBit_not_mem_transactions {options : Sync.Options} {progress : Sync.Progress}
    {items : List (Except ε LibraryRecord)} (kept : progress.store.SnapshotsAreKept)
    (named : highBit ∉ items.flatMap itemListIds) :
    ∀ t ∈ Sync.transactions options progress items, highBit ∉ t.listIds := by
  induction items generalizing progress with
  | nil => exact fun t mem => highBit_not_mem_prunings kept mem
  | cons item rest ih =>
    rw [List.flatMap_cons, List.mem_append, not_or] at named
    intro t mem
    cases item with
    | error fault => cases mem
    | ok record =>
      rcases List.mem_cons.1 mem with rfl | mem
      · exact named.1
      · cases step : progress.take options record with
        | error failure =>
          rw [step] at mem
          cases mem
        | ok next =>
          rw [step] at mem
          have later : next.store.SnapshotsAreKept := by
            rw [Sync.store_take step]
            exact kept.commit named.1
          exact ih later named.2 t mem

theorem highBit_not_mem_transactionsOf (kept : store.SnapshotsAreKept) {c : Call}
    (named : highBit ∉ c.listIds) : ∀ t ∈ store.transactionsOf c, highBit ∉ t.listIds := by
  cases c with
  | edit change | sync options record =>
    intro t mem
    rw [List.mem_singleton.1 mem]
    exact named
  | stream options items => exact highBit_not_mem_transactions kept named

/-- If no call names the id that is not kept, no transaction does. -/
theorem highBit_not_mem_history (kept : store.SnapshotsAreKept) {calls : List Call}
    (named : ∀ c ∈ calls, highBit ∉ c.listIds) :
    ∀ t ∈ store.history calls, highBit ∉ t.listIds := by
  induction calls generalizing store with
  | nil =>
    intro t mem
    cases mem
  | cons c rest ih =>
    have own := highBit_not_mem_transactionsOf kept (named c List.mem_cons_self)
    have later : (store.call c).SnapshotsAreKept := by
      rw [← run_transactionsOf]
      exact kept.run own
    intro t mem
    rcases List.mem_append.1 mem with mem | mem
    · exact own t mem
    · exact ih later (fun d among => named d (List.mem_cons_of_mem c among)) t mem

/-- The lists behind transactions: what was done to them, act by act. -/
def listsBehind (store : Store) : List Transaction → TrackLists → TrackLists
  | [], lists => lists
  | t :: ts, lists => listsBehind (store.commit t) ts ((store.listAct t).apply lists)

theorem lists_run {ts : List Transaction} {lists : TrackLists} (stored : store.IsStored)
    (plain : store.ListsArePlain) (kept : ∀ t ∈ ts, highBit ∉ t.listIds)
    (same : ∀ id, id ≠ highBit → store.trackIds id = lists id) :
    (store.run ts).ListsArePlain ∧
      ∀ id, id ≠ highBit → (store.run ts).trackIds id = store.listsBehind ts lists id := by
  induction ts generalizing store lists with
  | nil => exact ⟨plain, same⟩
  | cons t ts ih =>
    have step := store.listStep_commit t
    have own : highBit ∉ (store.listAct t).ids :=
      highBit_not_mem_listAct stored (kept t List.mem_cons_self)
    apply ih (isStored_commit stored t) (step.listsArePlain plain)
    · exact fun u mem => kept u (List.mem_cons_of_mem t mem)
    · intro id low
      exact (step.trackIds_eq stored plain own low).trans (ListAct.apply_congr _ (same id low))

/-! Taking tracks out of a playlist. -/

theorem count_of_removeTracks {id : PersistentId} {tracks : List PersistentId} {actor : String}
    {next : Store} {count : Nat} (h : store.removeTracks id tracks actor = .ok (next, count)) :
    count = (store.trackIds id).countP (· ∈ tracks) := by
  obtain ⟨row?, row, h⟩ := bind_eq_ok h
  cases row? with
  | none => cases h
  | some playlist =>
    simp only [filter_not_contains, trackIds_of_playlist? row] at h
    have removed : (store.trackIds id).length - ((store.trackIds id).filter (· ∉ tracks)).length =
        (store.trackIds id).countP (· ∈ tracks) := by
      have parts := (store.trackIds id).length_eq_countP_add_countP fun track => track ∈ tracks
      rw [← List.countP_eq_length_filter]
      simp only [decide_eq_true_eq] at parts
      omega
    split at h
    · rename_i nothing
      cases h
      exact nothing.symm.trans removed
    · cases h
      exact removed

/-- Where a playlist lists tracks they can be taken out. -/
theorem exists_removeTracks (plain : store.ListsArePlain) {id : PersistentId}
    (listed : store.trackIds id ≠ []) (tracks : List PersistentId) (actor : String) :
    ∃ result, store.removeTracks id tracks actor = .ok result := by
  obtain ⟨track, mem⟩ := List.exists_mem_of_ne_nil _ listed
  obtain ⟨m, there, key⟩ := exists_membership_of_mem_trackIds mem
  obtain ⟨row, found, -, rules⟩ := plain m there
  rw [key] at found
  have read : row.playlist? (store.trackIds id) ≠ none := by
    rw [PlaylistRow.playlist?, rules]
    exact Option.some_ne_none _
  obtain ⟨playlist, read⟩ := Option.ne_none_iff_exists'.1 read
  have stored : store.playlist? id = .ok (some playlist) := playlist?_eq_some.2 ⟨row, found, read⟩
  simp only [removeTracks, stored, bind, Except.bind, pure, Except.pure]
  split
  · exact ⟨_, rfl⟩
  · exact ⟨_, rfl⟩

/-- The table of places refines the map from playlists to lists. At every point of every history
only stored playlists that are neither folders nor smart have places; the list of each playlist is
what the transactions so far have done to it; and where tracks are taken out of a list, as many are
told as there were. -/
theorem lists_follow_acts (calls : List Call) (named : ∀ c ∈ calls, highBit ∉ c.listIds) :
    Store.empty.run (Store.empty.history calls) = Store.empty.callAll calls ∧
      ∀ ts, ts <+: Store.empty.history calls →
        let store := Store.empty.run ts
        (∀ m ∈ store.memberships.rows, ∃ row, store.playlists.find? m.playlist = some row ∧
          row.folder = false ∧ row.rules = .absent) ∧
        (∀ id, id ≠ highBit →
          store.trackIds id = Store.empty.listsBehind ts (fun _ => []) id) ∧
        ∀ id tracks actor,
          (store.trackIds id ≠ [] → ∃ result, store.removeTracks id tracks actor = .ok result) ∧
          ∀ next count, store.removeTracks id tracks actor = .ok (next, count) →
            count = (store.trackIds id).countP (· ∈ tracks) := by
  refine ⟨run_history _ calls, ?_⟩
  intro ts passed store
  have fresh : Store.empty.SnapshotsAreKept := ⟨snapshotsAreRecords_callAll [], fun _ _ => rfl⟩
  have nothing : Store.empty.ListsArePlain := by
    intro m mem
    cases mem
  have kept : ∀ t ∈ ts, highBit ∉ t.listIds := fun t mem =>
    highBit_not_mem_history fresh named t (passed.subset mem)
  obtain ⟨plain, lists⟩ := lists_run (isStored_callAll []) nothing kept fun _ _ => rfl
  refine ⟨plain, lists, ?_⟩
  intro id tracks actor
  exact ⟨fun listed => exists_removeTracks plain listed tracks actor,
    fun next count h => count_of_removeTracks h⟩

/-- A track is deleted, another one is taken out of a list, and a third one is pruned. -/
theorem lists_follow_acts_mixed :
    let options : Sync.Options := { owner := some 1, actor := "cron", now := ⟨7⟩ }
    let track (id : PersistentId) : LibraryRecord :=
      .track { persistentId := some id, location := some "file:///blue" }
    let list : Playlist := { Playlist.empty ⟨9⟩ "Mine" .standard with
      trackIds := [⟨1⟩, ⟨2⟩, ⟨4⟩, ⟨1⟩, ⟨3⟩, ⟨4⟩] }
    let shared (tracks : List PersistentId) : LibraryRecord :=
      .playlist { persistentId := some ⟨11⟩, trackIds := tracks }
    let calls : List Call :=
      [.stream options [.ok (track ⟨2⟩), .ok (track ⟨3⟩), .ok (shared [⟨3⟩, ⟨2⟩])],
        .edit (.savePlaylist list "user"), .edit (.deleteTrack ⟨2⟩ "user"),
        .edit (.removeTracks ⟨9⟩ [⟨1⟩] "user"), .stream options [.ok (shared [⟨3⟩, ⟨2⟩, ⟨5⟩])]]
    (∀ c ∈ calls, highBit ∉ c.listIds) ∧
      (Store.empty.callAll calls).trackIds ⟨9⟩ = [⟨4⟩, ⟨4⟩] ∧
      (Store.empty.callAll calls).trackIds ⟨11⟩ = [⟨5⟩] := by
  intro options track list shared calls
  have named : ∀ c ∈ calls, highBit ∉ c.listIds := by decide +kernel
  obtain ⟨run, follows⟩ := lists_follow_acts calls named
  obtain ⟨-, lists, -⟩ := follows _ (List.prefix_refl _)
  rw [run] at lists
  refine ⟨named, ?_, ?_⟩
  · rw [lists ⟨9⟩ (by decide)]
    decide +kernel
  · rw [lists ⟨11⟩ (by decide)]
    decide +kernel

end Store

end MusicLibrary
