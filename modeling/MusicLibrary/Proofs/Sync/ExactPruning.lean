import MusicLibrary.Proofs.Store.SameTables
import MusicLibrary.Proofs.Store.StoredRows
import MusicLibrary.Proofs.Sync.FolderPruning
import MusicLibrary.Proofs.Sync.SnapshotRecords
import MusicLibrary.Proofs.Sync.Stream
import MusicLibrary.Proofs.Sync.TrackPruning

/-! Pruning removes exactly what it should. An entry is stale if its owner has seen it and the
stream does not mention it; every stale track goes, and of the stale playlists all but those folders
below which something lies that is not stale. -/

namespace MusicLibrary

namespace Store

/-- Whether calls are made one by one or records are taken in one by one comes to the same. -/
theorem callAll_map_sync (store : Store) (options : Sync.Options) (records : List LibraryRecord) :
    store.callAll (records.map (.sync options)) = store.run (records.map (.sync options)) := by
  rw [callAll, run, List.foldl_map, List.foldl_map]
  rfl

theorem callAll_append (store : Store) (calls calls' : List Call) :
    store.callAll (calls ++ calls') = (store.callAll calls).callAll calls' := List.foldl_append

/-- Records that do not mention an entry leave its snapshots alone. -/
theorem snapshot?_run_sync {store : Store} {options : Sync.Options} {records : List LibraryRecord}
    {kind : EntityKind} {id : PersistentId} (owner : Option Int64)
    (unmentioned : ∀ record ∈ records, record.subject? ≠ some (kind, id)) :
    (store.run (records.map (.sync options))).snapshot? kind owner id.hex =
      store.snapshot? kind owner id.hex := by
  apply run_induction
    (P := fun next => next.snapshot? kind owner id.hex = store.snapshot? kind owner id.hex)
  · intro t mem next same
    obtain ⟨record, among, rfl⟩ := List.mem_map.1 mem
    have other : (Transaction.sync options record).baseline? ≠ some ⟨kind, owner, id.hex⟩ := by
      intro own
      obtain ⟨named, name, key⟩ := Option.map_eq_some_iff.1 own
      rw [SnapshotKey.mk.injEq] at key
      obtain rfl := PersistentId.hex_injective key.2.2
      apply unmentioned record among
      rw [record.subject?_of_named name, key.1]
    exact (snapshot?_commit_of_ne other).trans same
  · rfl

/-- What pruning for an owner relies on. -/
structure IsOrderly (owner : Option Int64) (store : Store) : Prop where
  forest : IsForest store.playlists
  kept : KeepsIds store.playlists
  records : store.SnapshotsAreRecords
  low : ∀ kind, store.snapshot? kind owner PersistentId.highBit.hex = none

/-- How many rows a store has of a kind. -/
def rowCount (store : Store) : EntityKind → Nat
  | .track => store.tracks.size
  | .playlist => store.playlists.size

theorem keepsIds_callAll (calls : List Call) : KeepsIds (Store.empty.callAll calls).playlists := by
  rw [← run_history]
  apply run_induction (P := fun store => KeepsIds store.playlists)
  · intro t _ store kept
    exact keepsIds_commit kept t
  · exact keepsIds_empty

end Store

namespace Sync

open Store (IsForest KeepsIds LiesBelow SameTables IsOrderly)

/-- The owner has seen the entry, and no record mentions it. -/
def IsStale (options : Options) (store : Store) (records : List LibraryRecord) (kind : EntityKind)
    (id : PersistentId) : Prop :=
  store.snapshot? kind options.owner id.hex ≠ none ∧
    ∀ record ∈ records, record.subject? ≠ some (kind, id)

instance (options : Options) (store : Store) (records : List LibraryRecord) (kind : EntityKind)
    (id : PersistentId) : Decidable (IsStale options store records kind id) :=
  inferInstanceAs (Decidable (_ ∧ _))

/-- Something that is not stale lies below the playlist. -/
def HoldsOthers (options : Options) (store : Store) (records : List LibraryRecord)
    (id : PersistentId) : Prop :=
  ∃ row ∈ store.playlists.rows, LiesBelow store.playlists id row ∧
    ¬ IsStale options store records .playlist row.id

/-- The texts are just the digits of the stale ids. -/
def ListsStale (options : Options) (store : Store) (records : List LibraryRecord)
    (kind : EntityKind) (keys : List String) : Prop :=
  ∀ key, key ∈ keys ↔ ∃ id : PersistentId, key = id.hex ∧ IsStale options store records kind id

variable {options : Options} {before : Store} {records : List LibraryRecord}
  {tracks playlists : List String} {id : PersistentId}

theorem ListsStale.mem_iff {kind : EntityKind} {keys : List String}
    (h : ListsStale options before records kind keys) :
    id.hex ∈ keys ↔ IsStale options before records kind id := by
  rw [h]
  constructor
  · rintro ⟨other, hex, stale⟩
    obtain rfl := PersistentId.hex_injective hex
    exact stale
  · intro stale
    exact ⟨id, rfl, stale⟩

theorem prunable_iff (h : ListsStale options before records .playlist playlists) :
    Prunable before.playlists playlists id ↔
      IsStale options before records .playlist id ∧ ¬ HoldsOthers options before records id := by
  simp only [Prunable, h.mem_iff, HoldsOthers, not_exists, not_and, not_not]

theorem IsStale.ne_highBit {kind : EntityKind} (orderly : before.IsOrderly options.owner)
    (stale : IsStale options before records kind id) : id ≠ .highBit := by
  rintro rfl
  exact stale.1 (orderly.low kind)

/-- The store between the pruning of tracks and the pruning of playlists. -/
theorem canPrune_pruneTracks (tracks : List String) (orderly : before.IsOrderly options.owner)
    (h : ListsStale options before records .playlist playlists) :
    CanPrune options (pruneTracks options before tracks).1 playlists where
  forest := by
    rw [playlists_pruneTracks]
    exact orderly.forest
  kept := by
    rw [playlists_pruneTracks]
    exact orderly.kept
  legible key mem := by
    obtain ⟨id, rfl, stale⟩ := (h key).1 mem
    exact ⟨id, stale.ne_highBit orderly, rfl⟩
  known key mem := by
    obtain ⟨id, rfl, stale⟩ := (h key).1 mem
    rw [snapshot?_playlist_pruneTracks]
    exact stale.1

theorem ListsStale.mem_rowKeys_iff {key : Key}
    (h : ListsStale options before records .track tracks) :
    key ∈ rowKeys tracks ↔ ∃ id, IsStale options before records .track id ∧ id.key = key := by
  simp only [rowKeys, List.mem_filterMap, Option.map_eq_some_iff]
  constructor
  · rintro ⟨text, mem, id, parsed, same⟩
    obtain ⟨named, rfl, stale⟩ := (h text).1 mem
    obtain rfl := Option.some.inj ((PersistentId.parse?_hex named).symm.trans parsed)
    exact ⟨named, stale, same⟩
  · rintro ⟨id, stale, same⟩
    exact ⟨id.hex, h.mem_iff.2 stale, id, PersistentId.parse?_hex id, same⟩

section

variable (orderly : before.IsOrderly options.owner)
  (listsPlaylists : ListsStale options before records .playlist playlists)
include orderly listsPlaylists

/-- A stale playlist stays as long as something that is not stale lies below it. -/
theorem playlist_stays (stale : IsStale options before records .playlist id)
    (holds : HoldsOthers options before records id) :
    let after := (prunePlaylists options (pruneTracks options before tracks).1 playlists).1
    after.row? .playlist id ≠ none ∧ after.row? .playlist id = before.row? .playlist id ∧
      after.snapshot? .playlist options.owner id.hex =
        before.snapshot? .playlist options.owner id.hex := by
  intro after
  have can := canPrune_pruneTracks tracks orderly listsPlaylists
  have needed : ¬ Prunable (pruneTracks options before tracks).1.playlists playlists id := by
    rw [playlists_pruneTracks, prunable_iff listsPlaylists]
    exact fun prunable => prunable.2 holds
  have found := can.find?_of_not_prunable (stale.ne_highBit orderly) needed
  rw [playlists_pruneTracks] at found
  obtain ⟨row, mem, below, _⟩ := holds
  obtain ⟨folder, there⟩ := orderly.forest.find?_of_liesBelow mem below
  refine ⟨?_, congrArg (Option.map EntryRow.playlist) found, ?_⟩
  · rw [Store.row?, found, there]
    exact Option.some_ne_none _
  · rw [can.snapshot?_of_not_prunable, snapshot?_playlist_pruneTracks]
    rintro - - other hex
    obtain rfl := PersistentId.hex_injective hex
    exact needed

/-- Every other stale playlist goes. -/
theorem playlist_pruned (stale : IsStale options before records .playlist id)
    (bare : ¬ HoldsOthers options before records id) :
    let after := (prunePlaylists options (pruneTracks options before tracks).1 playlists).1
    after.row? .playlist id = none ∧
      after.snapshot? .playlist options.owner id.hex = none := by
  intro after
  have can := canPrune_pruneTracks tracks orderly listsPlaylists
  have prunable : Prunable (pruneTracks options before tracks).1.playlists playlists id := by
    rw [playlists_pruneTracks, prunable_iff listsPlaylists]
    exact ⟨stale, bare⟩
  exact ⟨congrArg (Option.map EntryRow.playlist) (can.find?_of_prunable prunable),
    can.snapshot?_of_prunable prunable⟩

/-- As many entries are told as rows are gone. -/
theorem rowCount_pruned (tracks : List String) :
    let first := pruneTracks options before tracks
    let second := prunePlaylists options first.1 playlists
    second.1.rowCount .track + first.2.length = before.rowCount .track ∧
      second.1.rowCount .playlist + second.2.length = before.rowCount .playlist := by
  have thinned := (canPrune_pruneTracks tracks orderly listsPlaylists).thinned
  have sizeTracks := size_pruneTracks options before tracks
  have sizePlaylists := size_prunePlaylists options (pruneTracks options before tracks).1 playlists
  rw [← thinned.tracks] at sizeTracks
  rw [playlists_pruneTracks] at sizePlaylists
  exact ⟨sizeTracks, sizePlaylists⟩

variable (listsTracks : ListsStale options before records .track tracks)
include listsTracks

/-- A stale track leaves no trace. -/
theorem track_pruned (stale : IsStale options before records .track id) :
    let after := (prunePlaylists options (pruneTracks options before tracks).1 playlists).1
    after.snapshot? .track options.owner id.hex = none ∧ after.row? .track id = none ∧
      ∀ m ∈ after.memberships.rows, m.track ≠ id.key := by
  intro after
  have thinned := (canPrune_pruneTracks tracks orderly listsPlaylists).thinned
  have listed : id.key ∈ rowKeys tracks := listsTracks.mem_rowKeys_iff.2 ⟨id, stale, rfl⟩
  refine ⟨?_, ?_, ?_⟩
  · rw [snapshot?_track_prunePlaylists, snapshot?_pruneTracks,
      if_pos ⟨rfl, rfl, listsTracks.mem_iff.2 stale⟩]
  · have gone : after.track? id = none := by
      rw [Store.track?_of_tracks thinned.tracks, Store.track?, find?_pruneTracks, if_pos listed]
    rw [Store.row?, gone]
    rfl
  · intro m mem same
    rw [thinned.memberships, memberships_pruneTracks, List.filter_filter, List.mem_filter] at mem
    have kept := mem.2
    simp only [same, listed, not_true_eq_false, decide_false, Bool.and_false] at kept
    cases kept

/-- The row of what is not stale stays. -/
theorem row?_pruned {kind : EntityKind} (low : id ≠ .highBit)
    (fresh : ¬ IsStale options before records kind id) :
    let after := (prunePlaylists options (pruneTracks options before tracks).1 playlists).1
    after.row? kind id = before.row? kind id := by
  intro after
  have can := canPrune_pruneTracks tracks orderly listsPlaylists
  cases kind with
  | track =>
    apply congrArg (Option.map EntryRow.track)
    rw [Store.track?_of_tracks can.thinned.tracks, Store.track?, find?_pruneTracks, if_neg]
    · rfl
    · rw [listsTracks.mem_rowKeys_iff]
      rintro ⟨other, stale, key⟩
      obtain rfl := PersistentId.eq_of_key_eq (stale.ne_highBit orderly) low key
      exact fresh stale
  | playlist =>
    apply congrArg (Option.map EntryRow.playlist)
    rw [can.find?_of_not_prunable low, playlists_pruneTracks]
    rw [playlists_pruneTracks, prunable_iff listsPlaylists]
    exact fun prunable => fresh prunable.1

/-- A playlist that is not stale loses just the stale tracks from its list. -/
theorem trackIds_pruned (stored : before.IsStored) (low : id ≠ .highBit)
    (fresh : ¬ IsStale options before records .playlist id) :
    let after := (prunePlaylists options (pruneTracks options before tracks).1 playlists).1
    after.trackIds id =
      (before.trackIds id).filter fun track => ¬ IsStale options before records .track track := by
  intro after
  have thinned := (canPrune_pruneTracks tracks orderly listsPlaylists).thinned
  have row : after.playlists.find? id.key = before.playlists.find? id.key := by
    have can := canPrune_pruneTracks tracks orderly listsPlaylists
    rw [can.find?_of_not_prunable low, playlists_pruneTracks]
    rw [playlists_pruneTracks, prunable_iff listsPlaylists]
    exact fun prunable => fresh prunable.1
  have whole : after.memberships.rows.filter (·.playlist = id.key) =
      (before.memberships.rows.filter (·.playlist = id.key)).filter fun m =>
        decide (m.track ∉ rowKeys tracks) := by
    rw [thinned.memberships, memberships_pruneTracks, playlists_pruneTracks]
    simp only [List.filter_filter]
    refine List.filter_congr fun m _ => ?_
    by_cases own : m.playlist = id.key
    · -- The playlist itself is not pruned, so its list is not erased with it.
      have there : after.playlists.contains id.key = before.playlists.contains id.key :=
        congrArg Option.isSome row
      simp only [own, decide_true, Bool.true_and, Bool.and_true]
      rw [there, Bool.or_not_self]
      rfl
    · simp [own]
  have listed (m : Membership) (mem : m ∈ before.memberships.rows) :
      decide (m.track ∉ rowKeys tracks) =
        decide ¬ IsStale options before records .track (.ofKey m.track) := by
    obtain ⟨track, key⟩ := stored.tracks m mem
    rw [key, decide_eq_decide, not_iff_not, listsTracks.mem_rowKeys_iff]
    constructor
    · rintro ⟨other, stale, same⟩
      rw [← PersistentId.key_stored track] at same
      obtain rfl := PersistentId.eq_of_key_eq (stale.ne_highBit orderly)
        (PersistentId.stored_ne_highBit track) same
      exact stale
    · intro stale
      exact ⟨track.stored, stale, PersistentId.key_stored track⟩
  rw [Store.trackIds, Memberships.tracks, whole, Store.trackIds, Memberships.tracks, List.map_map,
    List.map_map, List.filter_map]
  congr 1
  refine List.filter_congr fun m mem => ?_
  exact listed m (List.mem_filter.1 mem).1

/-- In whatever order stale ids are listed, pruning comes to the same. -/
theorem sameTables_of_listsStale {tracks' playlists' : List String}
    (listsTracks' : ListsStale options before records .track tracks')
    (listsPlaylists' : ListsStale options before records .playlist playlists') :
    SameTables (prunePlaylists options (pruneTracks options before tracks).1 playlists).1
      (prunePlaylists options (pruneTracks options before tracks').1 playlists').1 := by
  have can := canPrune_pruneTracks tracks orderly listsPlaylists
  have can' := canPrune_pruneTracks tracks' orderly listsPlaylists'
  -- What is left of each table is told by which ids are listed, not by their order.
  have keys (key : Key) : key ∈ rowKeys tracks ↔ key ∈ rowKeys tracks' := by
    rw [listsTracks.mem_rowKeys_iff, listsTracks'.mem_rowKeys_iff]
  have prunable (id : PersistentId) :
      Prunable (pruneTracks options before tracks).1.playlists playlists id ↔
        Prunable (pruneTracks options before tracks').1.playlists playlists' id := by
    rw [playlists_pruneTracks, playlists_pruneTracks, prunable_iff listsPlaylists,
      prunable_iff listsPlaylists']
  have rows : (prunePlaylists options (pruneTracks options before tracks).1 playlists).1.playlists =
      (prunePlaylists options (pruneTracks options before tracks').1 playlists').1.playlists := by
    apply Table.eq_of_mem_iff
    intro row
    rw [can.mem_rows_iff, can'.mem_rows_iff, prunable, playlists_pruneTracks,
      playlists_pruneTracks]
  refine ⟨?_, rows, ?_, ?_⟩
  · rw [can.thinned.tracks, can'.thinned.tracks]
    apply Table.eq_of_find?_eq
    intro key
    simp only [find?_pruneTracks, keys]
  · apply Memberships.eq_of_rows_eq
    rw [can.thinned.memberships, can'.thinned.memberships, rows, memberships_pruneTracks,
      memberships_pruneTracks, playlists_pruneTracks, playlists_pruneTracks]
    simp only [keys]
  · apply Store.snapshots_eq_of_snapshot?_eq
    intro kind owner key
    have mid : (pruneTracks options before tracks).1.snapshot? kind owner key =
        (pruneTracks options before tracks').1.snapshot? kind owner key := by
      have listed : key ∈ tracks ↔ key ∈ tracks' :=
        (listsTracks key).trans (listsTracks' key).symm
      simp only [snapshot?_pruneTracks, listed]
    by_cases gone : kind = .playlist ∧ owner = options.owner ∧ ∃ id : PersistentId, key = id.hex ∧
        Prunable (pruneTracks options before tracks).1.playlists playlists id
    · obtain ⟨rfl, rfl, id, rfl, own⟩ := gone
      rw [can.snapshot?_of_prunable own, can'.snapshot?_of_prunable ((prunable id).1 own)]
    · rw [can.snapshot?_of_not_prunable, can'.snapshot?_of_not_prunable, mid]
      · intro playlist own id hex pruned
        exact gone ⟨playlist, own, id, hex, (prunable id).2 pruned⟩
      · intro playlist own id hex pruned
        exact gone ⟨playlist, own, id, hex, pruned⟩

/-- In whatever order stale ids are listed, as many entries are told. -/
theorem length_of_listsStale {tracks' playlists' : List String}
    (listsTracks' : ListsStale options before records .track tracks')
    (listsPlaylists' : ListsStale options before records .playlist playlists') :
    let first := pruneTracks options before tracks
    let first' := pruneTracks options before tracks'
    first.2.length = first'.2.length ∧ (prunePlaylists options first.1 playlists).2.length =
      (prunePlaylists options first'.1 playlists').2.length := by
  intro first first'
  have same := sameTables_of_listsStale orderly listsPlaylists listsTracks listsTracks'
    listsPlaylists'
  obtain ⟨sizeTracks, sizePlaylists⟩ := rowCount_pruned orderly listsPlaylists tracks
  obtain ⟨sizeTracks', sizePlaylists'⟩ := rowCount_pruned orderly listsPlaylists' tracks'
  rw [Store.rowCount, same.tracks] at sizeTracks
  rw [Store.rowCount, same.playlists] at sizePlaylists
  exact ⟨Nat.add_left_cancel (sizeTracks.trans sizeTracks'.symm),
    Nat.add_left_cancel (sizePlaylists.trans sizePlaylists'.symm)⟩

end

/-! Streams. -/

theorem listsStale_staleIds (orderly : before.IsOrderly options.owner) {store : Store}
    {kind : EntityKind} {seen : List String}
    (same : ∀ key, store.snapshot? kind options.owner key =
      before.snapshot? kind options.owner key)
    (mentioned : ∀ key, key ∈ seen ↔
      ∃ record ∈ records, ∃ id, record.subject? = some (kind, id) ∧ key = id.hex) :
    ListsStale options before records kind (staleIds options store kind seen) := by
  intro key
  rw [mem_staleIds, same, mentioned]
  constructor
  · rintro ⟨known, unseen⟩
    obtain ⟨data, found⟩ := Option.ne_none_iff_exists'.1 known
    obtain ⟨_, id, _, _, rfl, _⟩ := orderly.records _ _ _ _ found
    exact ⟨id, rfl, known, fun record mem named => unseen ⟨record, mem, id, named, rfl⟩⟩
  · rintro ⟨id, rfl, known, unmentioned⟩
    refine ⟨known, ?_⟩
    rintro ⟨record, mem, other, named, hex⟩
    obtain rfl := PersistentId.hex_injective hex
    exact unmentioned record mem named

/-- A stream that comes to its end prunes the stale ids, in the order of their digits. -/
theorem prune_listsStale {progress last : Progress}
    (fresh : progress.seenTracks = [] ∧ progress.seenPlaylists = [])
    (all : Progress.takeAll options progress records = .ok last)
    (orderly : last.store.IsOrderly options.owner) :
    ∃ tracks playlists, ListsStale options last.store records .track tracks ∧
      ListsStale options last.store records .playlist playlists ∧
      let first := pruneTracks options last.store tracks
      let second := prunePlaylists options first.1 playlists
      (last.prune options).store = second.1 ∧
        ((last.prune options).statsOf .track).deleted = first.2.length ∧
        ((last.prune options).statsOf .playlist).deleted = second.2.length := by
  have mentioned (kind : EntityKind) (key : String) : key ∈ last.seen kind ↔
      ∃ record ∈ records, ∃ id, record.subject? = some (kind, id) ∧ key = id.hex := by
    rw [Progress.mem_seen_takeAll all]
    cases kind <;> simp [Progress.seen, fresh]
  refine ⟨staleIds options last.store .track last.seenTracks, _,
    listsStale_staleIds orderly (fun _ => rfl) (mentioned .track),
    listsStale_staleIds orderly (fun key => ?_) (mentioned .playlist), rfl, rfl, rfl⟩
  rw [snapshot?_playlist_pruneTracks]

/-- The records of a stream that were taken in are calls of their own. -/
theorem store_takeAll_callAll {calls : List Call} {records : List LibraryRecord} {last : Progress}
    (all : Progress.takeAll options ⟨Store.empty.callAll calls, {}, [], [], []⟩ records =
      .ok last) :
    last.store = Store.empty.callAll (calls ++ records.map (.sync options)) := by
  rw [Progress.store_takeAll all, ← Store.callAll_map_sync]
  exact (Store.callAll_append _ _ _).symm

/-- What calls and then the records of a stream leave is fit for pruning, as long as no id is the
one that is not kept. -/
theorem isOrderly_callAll {calls : List Call} {records : List LibraryRecord}
    (named : ∀ c ∈ calls, .highBit ∉ c.playlistIds)
    (low : ∀ kind,
      (Store.empty.callAll calls).snapshot? kind options.owner PersistentId.highBit.hex = none)
    (kept : ∀ record ∈ records,
      record.persistentId ≠ some .highBit ∧ .highBit ∉ record.playlistIds) :
    (Store.empty.callAll (calls ++ records.map (.sync options))).IsOrderly options.owner where
  forest := by
    apply Store.isForest_callAll
    intro c mem
    rcases List.mem_append.1 mem with mem | mem
    · exact named c mem
    · obtain ⟨record, among, rfl⟩ := List.mem_map.1 mem
      exact (kept record among).2
  kept := Store.keepsIds_callAll _
  records := Store.snapshotsAreRecords_callAll _
  low kind := by
    rw [Store.callAll_append, Store.callAll_map_sync, Store.snapshot?_run_sync, low]
    intro record mem subject
    obtain ⟨id, name, same⟩ := Option.map_eq_some_iff.1 subject
    cases same
    exact (kept record mem).1 name

/-- Pruning removes exactly what it should, for every store that calls can reach and every stream
that comes to its end. No stale track leaves a trace; a stale playlist stays if and only if
something that is not stale lies below it; the row of everything else stays; as many rows are
counted as are gone; and it all comes to the same in whatever order the stale ids are pruned. -/
theorem prunes_exactly (calls : List Call) (options : Options) (records : List LibraryRecord)
    (named : ∀ c ∈ calls, .highBit ∉ c.playlistIds)
    (low : ∀ kind,
      (Store.empty.callAll calls).snapshot? kind options.owner PersistentId.highBit.hex = none)
    (kept : ∀ record ∈ records,
      record.persistentId ≠ some .highBit ∧ .highBit ∉ record.playlistIds)
    (complete : (stream options (Store.empty.callAll calls)
      (records.map (.ok : LibraryRecord → Except LineFault LibraryRecord))).IsComplete) :
    let before := Store.empty.callAll (calls ++ records.map (.sync options))
    let pruned := (stream options (Store.empty.callAll calls)
      (records.map (.ok : LibraryRecord → Except LineFault LibraryRecord))).progress
    let after := pruned.store
    (∀ id, IsStale options before records .track id →
      after.snapshot? .track options.owner id.hex = none ∧ after.row? .track id = none ∧
        ∀ m ∈ after.memberships.rows, m.track ≠ id.key) ∧
    (∀ id, IsStale options before records .playlist id →
      (HoldsOthers options before records id → after.row? .playlist id ≠ none ∧
        after.row? .playlist id = before.row? .playlist id ∧
        after.snapshot? .playlist options.owner id.hex =
          before.snapshot? .playlist options.owner id.hex) ∧
      (¬ HoldsOthers options before records id → after.row? .playlist id = none ∧
        after.snapshot? .playlist options.owner id.hex = none)) ∧
    (∀ kind id, id ≠ .highBit → ¬ IsStale options before records kind id →
      after.row? kind id = before.row? kind id) ∧
    (∀ kind, after.rowCount kind + (pruned.statsOf kind).deleted = before.rowCount kind) ∧
    ∀ tracks playlists, ListsStale options before records .track tracks →
      ListsStale options before records .playlist playlists →
        let first := pruneTracks options before tracks
        let second := prunePlaylists options first.1 playlists
        SameTables second.1 after ∧ first.2.length = (pruned.statsOf .track).deleted ∧
          second.2.length = (pruned.statsOf .playlist).deleted := by
  intro before pruned after
  obtain ⟨records', last, same, all⟩ := takeAll_of_isComplete complete
  have ok_injective : Function.Injective (.ok : LibraryRecord → Except LineFault LibraryRecord) :=
    fun _ _ => Except.ok.inj
  obtain rfl := List.map_injective_iff.2 ok_injective same
  have before_eq : last.store = before := store_takeAll_callAll all
  have pruned_eq : pruned = last.prune options := congrArg Result.progress (resume_of_takeAll all)
  have orderly : before.IsOrderly options.owner := isOrderly_callAll named low kept
  obtain ⟨tracks, playlists, listsTracks, listsPlaylists, store, deletedTracks, deletedPlaylists⟩ :=
    prune_listsStale ⟨rfl, rfl⟩ all (before_eq ▸ orderly)
  rw [before_eq] at listsTracks listsPlaylists store deletedTracks deletedPlaylists
  rw [← pruned_eq] at store deletedTracks deletedPlaylists
  obtain ⟨sizeTracks, sizePlaylists⟩ := rowCount_pruned orderly listsPlaylists tracks
  have after_eq : after = _ := store
  rw [after_eq]
  refine ⟨?_, ?_, ?_, ?_, ?_⟩
  · intro id stale
    exact track_pruned orderly listsPlaylists listsTracks stale
  · intro id stale
    exact ⟨playlist_stays orderly listsPlaylists stale,
      playlist_pruned orderly listsPlaylists stale⟩
  · intro kind id low fresh
    exact row?_pruned orderly listsPlaylists listsTracks low fresh
  · intro kind
    cases kind with
    | track =>
      rw [deletedTracks]
      exact sizeTracks
    | playlist =>
      rw [deletedPlaylists]
      exact sizePlaylists
  · intro tracks' playlists' listsTracks' listsPlaylists' first second
    obtain ⟨toldTracks, toldPlaylists⟩ :=
      length_of_listsStale orderly listsPlaylists' listsTracks' listsTracks listsPlaylists
    refine ⟨?_, ?_, ?_⟩
    · exact sameTables_of_listsStale orderly listsPlaylists' listsTracks' listsTracks listsPlaylists
    · rw [deletedTracks]
      exact toldTracks
    · rw [deletedPlaylists]
      exact toldPlaylists

/-- Three folders in one another, of which the outermost one has the least id, and a folder in which
the user has put a list; the file has only one track left. -/
theorem prunes_exactly_threeDeep :
    let options : Options := { owner := some 1, actor := "cron", now := ⟨7⟩ }
    let track (id : PersistentId) : LibraryRecord :=
      .track { persistentId := some id, location := some "file:///blue" }
    let folder (id : PersistentId) (parent : Option PersistentId) : LibraryRecord :=
      .playlist { persistentId := some id, parentPersistentId := parent, folder := some true }
    let list := { Playlist.empty ⟨33⟩ "Mine" .standard with
      parentId := some ⟨32⟩, trackIds := [⟨2⟩, ⟨1⟩] }
    let calls : List Call :=
      [.stream options [.ok (track ⟨1⟩), .ok (track ⟨2⟩), .ok (folder ⟨16⟩ none),
        .ok (folder ⟨17⟩ (some ⟨16⟩)), .ok (folder ⟨18⟩ (some ⟨17⟩)), .ok (folder ⟨32⟩ none)],
       .edit (.savePlaylist list "user")]
    let records := [track ⟨2⟩]
    let before := Store.empty.callAll (calls ++ records.map (.sync options))
    let pruned := (stream options (Store.empty.callAll calls)
      (records.map (.ok : LibraryRecord → Except LineFault LibraryRecord))).progress
    (IsStale options before records .track ⟨1⟩ ∧ ∀ m ∈ pruned.store.memberships.rows, m.track ≠ 1) ∧
      (HoldsOthers options before records ⟨32⟩ ∧ pruned.store.row? .playlist ⟨32⟩ ≠ none) ∧
      (pruned.statsOf .playlist).deleted = 3 ∧ pruned.store.rowCount .playlist = 2 := by
  intro options track folder list calls records before pruned
  have complete : (stream options (Store.empty.callAll calls)
      (records.map (.ok : LibraryRecord → Except LineFault LibraryRecord))).IsComplete := by
    decide +kernel
  have low (kind : EntityKind) : (Store.empty.callAll calls).snapshot? kind options.owner
      PersistentId.highBit.hex = none := by
    cases kind <;> decide +kernel
  obtain ⟨gone, playlists, -, counted, -⟩ :=
    prunes_exactly calls options records (by decide) low (by decide) complete
  have stale : IsStale options before records .track ⟨1⟩ := by decide +kernel
  have folderStale : IsStale options before records .playlist ⟨32⟩ := by decide +kernel
  have holds : HoldsOthers options before records ⟨32⟩ :=
    ⟨.ofPlaylist list, by decide +kernel, .inside rfl, by decide +kernel⟩
  have deleted : (pruned.statsOf .playlist).deleted = 3 := by decide +kernel
  have size : before.rowCount .playlist = 5 := by decide +kernel
  refine ⟨⟨stale, (gone ⟨1⟩ stale).2.2⟩, ⟨holds, ((playlists ⟨32⟩ folderStale).1 holds).1⟩,
    deleted, ?_⟩
  have counted := counted .playlist
  rw [show (stream options (Store.empty.callAll calls) _).progress = pruned from rfl, deleted,
    size] at counted
  exact Nat.add_right_cancel counted

end Sync

end MusicLibrary
