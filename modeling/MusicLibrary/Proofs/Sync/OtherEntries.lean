import MusicLibrary.Proofs.Store.StoredRows
import MusicLibrary.Proofs.Sync.ExactPruning

/-! A synchronisation touches only the entries of its owner. What other owners have seen stays as it
is, and so does every entry that neither the owner nor the stream knows; only a playlist may lose
tracks that are pruned. -/

namespace MusicLibrary

namespace Store

/-- Of an entry the two stores have the same row and, if it is a playlist, the same tracks. -/
structure SameEntry (kind : EntityKind) (id : PersistentId) (store next : Store) : Prop where
  row : next.row? kind id = store.row? kind id
  list : kind = .playlist → next.trackIds id = store.trackIds id

variable {store next : Store} {options : Sync.Options} {kind : EntityKind} {id : PersistentId}

theorem SameEntry.refl (store : Store) : SameEntry kind id store store := ⟨rfl, fun _ => rfl⟩

theorem SameEntry.trans {last : Store} (first : SameEntry kind id store next)
    (second : SameEntry kind id next last) : SameEntry kind id store last :=
  ⟨second.row.trans first.row, fun playlist => (second.list playlist).trans (first.list playlist)⟩

theorem trackIds_of_memberships (h : next.memberships = store.memberships) (id : PersistentId) :
    next.trackIds id = store.trackIds id := by
  rw [trackIds, h]
  rfl

/-- Another playlist that is written leaves a playlist and its list alone. -/
theorem sameEntry_of_writePlaylist {playlist : Playlist}
    (write : store.writePlaylist playlist = .ok next) (other : playlist.id.key ≠ id.key) :
    SameEntry .playlist id store next := by
  obtain ⟨_, rfl⟩ := of_writePlaylist write
  refine ⟨congrArg (Option.map EntryRow.playlist) ?_, fun _ => ?_⟩
  · rw [Table.find?_put, if_neg]
    change id.key ≠ playlist.id.stored.key
    rw [PersistentId.key_stored]
    exact other.symm
  · rw [trackIds, Memberships.tracks_replace, if_neg other.symm]
    rfl

theorem sameEntry_of_syncPlaylist {record : PlaylistRecord} {outcome : Sync.Outcome}
    (step : Sync.syncPlaylist options store record = .ok (next, outcome))
    (other : ∀ named, record.persistentId = some named → named.key ≠ id.key) :
    SameEntry .playlist id store next := by
  cases Sync.playlistStep_of_syncPlaylist step with
  | nameless name => exact .refl store
  | system name refused => exact .refl store
  | known name seen => exact .refl store
  | gone name differs absent => exact .refl store
  | otherShape name differs row base refused => exact .refl store
  | settled name differs row base update nothing => exact ⟨rfl, fun _ => rfl⟩
  | created name fresh write =>
    have same := sameEntry_of_writePlaylist write (other _ name)
    exact ⟨same.row, same.list⟩
  | @merged named previous stored oldId old playlist change written name differs row base update
      something write =>
    obtain ⟨found, there, ownId, _⟩ := of_playlist? row
    have key : playlist.id.key = named.key := by
      rw [(of_update? update).1, ownId]
      exact Table.key_of_find? there
    have same : SameEntry .playlist id store written := by
      apply sameEntry_of_writePlaylist write
      rw [key]
      exact other _ name
    obtain ⟨audit, recorded⟩ := Sync.recordPlaylistChange_eq ..
    rw [recorded]
    exact ⟨same.row, same.list⟩

/-- A record leaves other entries alone. -/
theorem sameEntry_sync {record : LibraryRecord} (kept : id ≠ .highBit)
    (named : record.persistentId ≠ some .highBit) (other : record.subject? ≠ some (kind, id)) :
    SameEntry kind id store (store.commit (.sync options record)) := by
  have foreign : (Transaction.sync options record).IsForeign none kind id :=
    Transaction.isForeign_sync kept named other
  cases step : Sync.syncRecord options store record with
  | error failure =>
    rw [commit_of_error (attempt_of_syncRecord_error step)]
    exact .refl store
  | ok result =>
    obtain ⟨next, outcome⟩ := result
    rw [commit_of_ok (attempt_of_syncRecord step)]
    have apart (own : PersistentId) (name : record.persistentId = some own)
        (same : record.kind = kind) : own.key ≠ id.key :=
      foreign.row own (same ▸ record.subject?_of_named name)
    cases record with
    | track record =>
      cases kind with
      | track =>
        refine ⟨congrArg (Option.map EntryRow.track) ?_, nofun⟩
        exact track?_of_syncTrack step fun own name => apart own name rfl
      | playlist =>
        refine ⟨?_, fun _ => trackIds_of_memberships (memberships_of_syncTrack step) id⟩
        rw [row?, row?, playlists_of_syncTrack step]
    | playlist record =>
      cases kind with
      | track =>
        refine ⟨congrArg (Option.map EntryRow.track) ?_, nofun⟩
        exact track?_of_tracks (tracks_of_syncPlaylist step) id
      | playlist => exact sameEntry_of_syncPlaylist step fun own name => apart own name rfl

theorem sameEntry_run_sync {records : List LibraryRecord} (kept : id ≠ .highBit)
    (named : ∀ record ∈ records, record.persistentId ≠ some .highBit)
    (other : ∀ record ∈ records, record.subject? ≠ some (kind, id)) :
    SameEntry kind id store (store.run (records.map (.sync options))) := by
  apply run_induction (P := SameEntry kind id store)
  · intro t mem before same
    obtain ⟨record, among, rfl⟩ := List.mem_map.1 mem
    exact same.trans (sameEntry_sync kept (named record among) (other record among))
  · exact .refl store

end Store

namespace Sync

open Store (SameEntry)

/-- The records of a stream, those behind a fault included. -/
def recordsOf (items : List (Except ε LibraryRecord)) : List LibraryRecord :=
  items.filterMap Except.toOption

theorem mem_recordsOf {items : List (Except ε LibraryRecord)} {record : LibraryRecord} :
    record ∈ recordsOf items ↔ .ok record ∈ items := by
  rw [recordsOf, List.mem_filterMap]
  constructor
  · rintro ⟨item, mem, same⟩
    cases item with
    | error fault => cases same
    | ok own =>
      cases same
      exact mem
  · intro mem
    exact ⟨_, mem, rfl⟩

theorem recordsOf_map (records : List LibraryRecord) :
    recordsOf (records.map (.ok : LibraryRecord → Except ε LibraryRecord)) = records := by
  rw [recordsOf, List.filterMap_map]
  exact List.filterMap_some

theorem mem_recordsOf_append {records : List LibraryRecord} {record : LibraryRecord}
    (mem : record ∈ records) (rest : List (Except ε LibraryRecord)) :
    record ∈ recordsOf (records.map .ok ++ rest) :=
  mem_recordsOf.2 (List.mem_append_left _ (List.mem_map_of_mem mem))

/-- Neither the owner nor the stream knows the entry. -/
structure IsOthers (options : Options) (store : Store) (records : List LibraryRecord)
    (kind : EntityKind) (id : PersistentId) : Prop where
  kept : id ≠ .highBit
  unseen : store.snapshot? kind options.owner id.hex = none
  unmentioned : ∀ record ∈ records, record.subject? ≠ some (kind, id)

variable {options : Options} {store : Store} {progress final : Progress}
  {records : List LibraryRecord} {kind : EntityKind} {id : PersistentId}

/-- What other owners have seen stays as it is. -/
theorem snapshot?_stream_of_ne {owner : Option Int64} (other : owner ≠ options.owner)
    (store : Store) (items : List (Except ε LibraryRecord)) (kind : EntityKind) (key : String) :
    (stream options store items).progress.store.snapshot? kind owner key =
      store.snapshot? kind owner key := by
  rw [stream, ← run_transactions]
  apply Store.run_induction
    (P := fun next => next.snapshot? kind owner key = store.snapshot? kind owner key)
  · intro t mem before same
    have foreign : t.baseline? ≠ some ⟨kind, owner, key⟩ := by
      intro own
      rcases mem_transactions mem with ⟨record, _, rfl⟩ | ⟨_, last, _, _, pruned⟩
      · obtain ⟨_, _, baseline⟩ := Option.map_eq_some_iff.1 own
        rw [SnapshotKey.mk.injEq] at baseline
        exact other baseline.2.1.symm
      · obtain ⟨_, _, _, baseline, _⟩ := baseline?_of_mem_prunings pruned
        rw [own, Option.some.injEq, SnapshotKey.mk.injEq] at baseline
        exact other baseline.2.1
    exact (Store.snapshot?_commit_of_ne foreign).trans same
  · rfl

/-- What a stream does not mention is as stale behind its records as before them. -/
theorem isStale_takeAll (all : Progress.takeAll options progress records = .ok final) :
    IsStale options final.store records kind id ↔
      IsStale options progress.store records kind id := by
  rw [Progress.store_takeAll all]
  refine and_congr_left fun unmentioned => ?_
  rw [Store.snapshot?_run_sync _ unmentioned]

theorem sameEntry_takeAll (all : Progress.takeAll options progress records = .ok final)
    (named : ∀ record ∈ records, record.persistentId ≠ some .highBit)
    (others : IsOthers options store records kind id) :
    SameEntry kind id progress.store final.store := by
  rw [Progress.store_takeAll all]
  exact Store.sameEntry_run_sync others.kept named others.unmentioned

/-- Fewer records mention no more. -/
theorem IsOthers.mono {more : List LibraryRecord} (others : IsOthers options store more kind id)
    (fewer : ∀ record ∈ records, record ∈ more) : IsOthers options store records kind id :=
  ⟨others.kept, others.unseen, fun record mem => others.unmentioned record (fewer record mem)⟩

/-- Of an entry that is not known a stream leaves the row, and of its list what is not pruned. -/
theorem others_of_exit {calls : List Call} {items : List (Except ε LibraryRecord)} {result : Result}
    (exit : StreamExit options ⟨Store.empty.callAll calls, {}, [], [], []⟩ items result)
    (named : ∀ c ∈ calls, .highBit ∉ c.playlistIds)
    (low : ∀ kind,
      (Store.empty.callAll calls).snapshot? kind options.owner PersistentId.highBit.hex = none)
    (kept : ∀ record ∈ recordsOf items,
      record.persistentId ≠ some .highBit ∧ .highBit ∉ record.playlistIds)
    (others : IsOthers options (Store.empty.callAll calls) (recordsOf items) kind id) :
    let before := Store.empty.callAll calls
    let after := result.progress.store
    after.row? kind id = before.row? kind id ∧
      (kind = .playlist → after.trackIds id =
        if result.IsComplete then (before.trackIds id).filter fun track =>
          ¬ IsStale options before (recordsOf items) .track track
        else before.trackIds id) := by
  intro before after
  cases exit with
  | @complete records final all =>
    rw [recordsOf_map] at kept others ⊢
    have complete : Result.IsComplete ⟨final.prune options, none⟩ := by
      rw [← resume_of_takeAll (ε := LineFault) all]
      exact isComplete_of_takeAll rfl all
    have same := sameEntry_takeAll all (fun record mem => (kept record mem).1) others
    have orderly : final.store.IsOrderly options.owner := by
      rw [store_takeAll_callAll all]
      exact isOrderly_callAll named low kept
    have stored : final.store.IsStored := by
      rw [store_takeAll_callAll all]
      exact Store.isStored_callAll _
    obtain ⟨tracks, playlists, listsTracks, listsPlaylists, pruned, _⟩ :=
      prune_listsStale ⟨rfl, rfl⟩ all orderly
    have fresh : ¬ IsStale options final.store records kind id :=
      fun stale => ((isStale_takeAll all).1 stale).1 others.unseen
    have after_eq : after = _ := pruned
    rw [if_pos complete, after_eq]
    refine ⟨?_, ?_⟩
    · rw [row?_pruned orderly listsPlaylists listsTracks others.kept fresh]
      exact same.row
    · rintro rfl
      rw [trackIds_pruned orderly listsPlaylists listsTracks stored others.kept fresh,
        same.list rfl]
      simp only [isStale_takeAll all]
      rfl
  -- The other two exits prune nothing; the records behind them were never met.
  | @aborted records final fault rest all =>
    have among (record : LibraryRecord) (mem : record ∈ records) :=
      mem_recordsOf_append mem (.error fault :: rest)
    have same := sameEntry_takeAll all (fun record mem => (kept record (among record mem)).1)
      (others.mono among)
    exact ⟨same.row, fun playlist => (same.list playlist).trans (if_neg nofun).symm⟩
  | @failed records final record failure rest all stops =>
    have among (own : LibraryRecord) (mem : own ∈ records) :=
      mem_recordsOf_append mem (.ok record :: rest)
    have same := sameEntry_takeAll all (fun own mem => (kept own (among own mem)).1)
      (others.mono among)
    exact ⟨same.row, fun playlist => (same.list playlist).trans (if_neg nofun).symm⟩

/-- A synchronisation touches only its own entries, whether it comes to its end, breaks off or
fails. The snapshots of all other owners stay; so does the row of every entry that neither the owner
nor the stream knows; and the list of such a playlist stays in its order and loses at most the
tracks that are pruned, which the owner has seen and the stream does not mention. -/
theorem touches_own_entries (calls : List Call) (options : Options)
    (items : List (Except LineFault LibraryRecord))
    (named : ∀ c ∈ calls, .highBit ∉ c.playlistIds)
    (low : ∀ kind,
      (Store.empty.callAll calls).snapshot? kind options.owner PersistentId.highBit.hex = none)
    (kept : ∀ record ∈ recordsOf items,
      record.persistentId ≠ some .highBit ∧ .highBit ∉ record.playlistIds) :
    let before := Store.empty.callAll calls
    let result := stream options before items
    let after := result.progress.store
    (∀ kind owner key, owner ≠ options.owner →
      after.snapshot? kind owner key = before.snapshot? kind owner key) ∧
    (∀ kind id, IsOthers options before (recordsOf items) kind id →
      after.row? kind id = before.row? kind id) ∧
    ∀ id, IsOthers options before (recordsOf items) .playlist id →
      after.trackIds id =
        if result.IsComplete then (before.trackIds id).filter fun track =>
          ¬ IsStale options before (recordsOf items) .track track
        else before.trackIds id := by
  intro before result after
  have exit : StreamExit options ⟨before, {}, [], [], []⟩ items result :=
    streamExit_resume options _ items
  refine ⟨?_, ?_, ?_⟩
  · intro kind owner key other
    exact snapshot?_stream_of_ne other before items kind key
  · intro kind id others
    exact (others_of_exit exit named low kept others).1
  · intro id others
    exact (others_of_exit exit named low kept others).2 rfl

/-- Alice's file has lost a track that is in a playlist of Bob. It leaves the playlist, but Bob's
snapshot of it stays. -/
theorem touches_own_entries_shared :
    let alice : Options := { owner := some 1, actor := "cron", now := ⟨7⟩ }
    let bob : Options := { owner := some 2, actor := "cron", now := ⟨9⟩ }
    let track (id : PersistentId) : LibraryRecord :=
      .track { persistentId := some id, location := some "file:///blue" }
    let list : LibraryRecord :=
      .playlist { persistentId := some ⟨32⟩, name := some "Mix", trackIds := [⟨2⟩, ⟨1⟩, ⟨3⟩] }
    let calls : List Call :=
      [.stream alice [.ok (track ⟨1⟩), .ok (track ⟨2⟩)], .sync bob (track ⟨1⟩), .sync bob list]
    let items : List (Except LineFault LibraryRecord) := [.ok (track ⟨2⟩)]
    let before := Store.empty.callAll calls
    let result := stream alice before items
    let after := result.progress.store
    (result.IsComplete ∧ IsOthers alice before (recordsOf items) .playlist ⟨32⟩) ∧
      after.trackIds ⟨32⟩ = [⟨2⟩, ⟨3⟩] ∧
      after.row? .playlist ⟨32⟩ = before.row? .playlist ⟨32⟩ ∧
      after.snapshot? .track (some 2) (PersistentId.hex ⟨1⟩) ≠ none := by
  intro alice bob track list calls items before result after
  have low (kind : EntityKind) :
      before.snapshot? kind alice.owner PersistentId.highBit.hex = none := by
    cases kind <;> decide +kernel
  have complete : result.IsComplete := by decide +kernel
  have others : IsOthers alice before (recordsOf items) .playlist ⟨32⟩ :=
    ⟨by decide, by decide +kernel, by decide⟩
  obtain ⟨snapshots, rows, lists⟩ :=
    touches_own_entries calls alice items (by decide) low (by decide)
  have seen : before.snapshot? .track (some 2) (PersistentId.hex ⟨1⟩) ≠ none := by decide +kernel
  refine ⟨⟨complete, others⟩, ?_, ?_, ?_⟩
  · have remaining : ((before.trackIds ⟨32⟩).filter fun track =>
        ¬ IsStale alice before (recordsOf items) .track track) = [⟨2⟩, ⟨3⟩] := by
      decide +kernel
    rw [lists ⟨32⟩ others, if_pos complete]
    exact remaining
  · rw [rows .playlist ⟨32⟩ others]
  · rw [snapshots .track (some 2) (PersistentId.hex ⟨1⟩) (by decide)]
    exact seen

end Sync

end MusicLibrary
