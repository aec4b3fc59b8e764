import Mathlib.Data.List.Induction
import MusicLibrary.Proofs.Sync.Stream

/-! Entries that were deleted here. As long as an owner's snapshot of an entry is there, no record
brings the row back; and the snapshot stays, since nobody but the owner's pruning takes it away, and
that spares whatever the stream mentions. -/

namespace MusicLibrary

/-- The call belongs to the owner, mentions the entry if it is a stream that comes to its pruning,
and brings no record with the one id that is not kept; or it is a user's change, but does not save
the entry. -/
def Call.Respects (owner : Option Int64) (kind : EntityKind) (id : PersistentId) (store : Store) :
    Call → Prop
  | .edit change =>
    ∀ saved, (Transaction.edit change).written? = some (kind, saved) → saved.key ≠ id.key
  | .sync options record => options.owner = owner ∧ record.persistentId ≠ some .highBit
  | .stream options items =>
    options.owner = owner ∧
      (∀ record, .ok record ∈ items → record.persistentId ≠ some .highBit) ∧
      ((Sync.stream options store items).IsComplete →
        ∃ record, .ok record ∈ items ∧ record.subject? = some (kind, id))

namespace Store

/-- An owner has seen the entry, and its row is not there any more. -/
structure IsDeleted (owner : Option Int64) (kind : EntityKind) (id : PersistentId)
    (store : Store) : Prop where
  seen : store.snapshot? kind owner id.hex ≠ none
  absent : store.row? kind id = none

variable {store : Store} {owner : Option Int64} {kind : EntityKind} {id : PersistentId}

theorem IsDeleted.spared {next : Store} (deleted : IsDeleted owner kind id store)
    (spared : Spares owner kind id store next) : IsDeleted owner kind id next := by
  refine ⟨?_, ?_⟩
  · rw [spared.baseline]
    exact deleted.seen
  · rcases spared.row with same | gone
    · rw [same]
      exact deleted.absent
    · exact gone

/-- A record of an entry that was deleted leaves the store as it was. -/
theorem commit_of_isDeleted {options : Sync.Options} {record : LibraryRecord}
    (deleted : IsDeleted options.owner kind id store) (own : record.subject? = some (kind, id)) :
    store.commit (.sync options record) = store := by
  cases attempt : store.attempt (.sync options record) with
  | error failure => exact commit_of_error attempt
  | ok next =>
    obtain ⟨outcome, step⟩ := syncRecord_of_attempt attempt
    obtain ⟨named, name, same⟩ := Option.map_eq_some_iff.1 own
    cases same
    rw [commit_of_ok attempt]
    cases record with
    | track record =>
      have absent := row?_track_eq_none.1 deleted.absent
      cases Sync.trackStep_of_syncTrack step with
      | nameless => rfl
      | notImportable => rfl
      | known => rfl
      | gone => rfl
      | created name' fresh =>
        cases name.symm.trans name'
        exact absurd fresh deleted.seen
      | settled name' differs row =>
        cases name.symm.trans name'
        cases absent.symm.trans row
      | merged name' differs row =>
        cases name.symm.trans name'
        cases absent.symm.trans row
    | playlist record =>
      have absent := row?_playlist_eq_none.1 deleted.absent
      cases Sync.playlistStep_of_syncPlaylist step with
      | nameless => rfl
      | system => rfl
      | known => rfl
      | gone => rfl
      | otherShape => rfl
      | created name' fresh =>
        cases name.symm.trans name'
        exact absurd fresh deleted.seen
      | settled name' differs row =>
        cases name.symm.trans name'
        cases absent.symm.trans row
      | merged name' differs row =>
        cases name.symm.trans name'
        cases absent.symm.trans row

theorem IsDeleted.sync {options : Sync.Options} {record : LibraryRecord} (kept : id ≠ .highBit)
    (deleted : IsDeleted options.owner kind id store)
    (named : record.persistentId ≠ some .highBit) :
    IsDeleted options.owner kind id (store.commit (.sync options record)) := by
  by_cases own : record.subject? = some (kind, id)
  · rw [commit_of_isDeleted deleted own]
    exact deleted
  · exact deleted.spared (spares_commit (Transaction.isForeign_sync kept named own))

theorem IsDeleted.call {c : Call} (kept : id ≠ .highBit) (deleted : IsDeleted owner kind id store)
    (respects : c.Respects owner kind id store) : IsDeleted owner kind id (store.call c) := by
  cases c with
  | edit change =>
    refine deleted.spared (spares_commit ⟨nofun, respects⟩)
  | sync options record =>
    obtain ⟨rfl, named⟩ := respects
    exact deleted.sync kept named
  | stream options items =>
    obtain ⟨rfl, named, mentions⟩ := respects
    rw [← run_transactionsOf]
    refine run_induction ?_ deleted
    intro t mem before deleted
    rcases Sync.mem_transactions mem with ⟨record, brought, rfl⟩ | ⟨records, last, rfl, all, pruned⟩
    · exact deleted.sync kept (named record brought)
    · obtain ⟨record, brought, own⟩ := mentions (Sync.isComplete_of_takeAll rfl all)
      have mem : record ∈ records := by simpa using brought
      have seen : id.hex ∈ last.seen kind :=
        (Sync.Progress.mem_seen_takeAll all).2 (.inl ⟨record, mem, id, own, rfl⟩)
      exact deleted.spared (spares_commit (Sync.isForeign_of_mem_prunings seen pruned))

/-- What was deleted here stays deleted. Once an owner has a snapshot of an entry whose row is not
there, the row is absent after every call of the owner, provided that every stream which comes to
its pruning mentions the entry and that nobody saves it. -/
theorem stays_deleted {store : Store} {owner : Option Int64} {kind : EntityKind}
    {id : PersistentId} (kept : id ≠ .highBit) (deleted : store.IsDeleted owner kind id)
    {calls : List Call}
    (respects : ∀ before c, before ++ [c] <+: calls →
      c.Respects owner kind id (store.callAll before)) :
    ∀ before, before <+: calls → (store.callAll before).IsDeleted owner kind id := by
  intro before
  -- From the back: the last call is made in a store where the entry is deleted.
  induction before using List.reverseRecOn with
  | nil =>
    intro _
    exact deleted
  | append_singleton earlier c ih =>
    intro whole
    have still := ih ((List.prefix_append earlier [c]).trans whole)
    rw [callAll, List.foldl_append]
    exact still.call kept (respects earlier c whole)

/-- A track that was deleted here comes back changed, twice in one stream, after a list that it is
in. -/
theorem stays_deleted_replayed :
    let options : Sync.Options := { owner := some 1, actor := "cron", now := ⟨7⟩ }
    let record (rating : Int64) : LibraryRecord :=
      .track { persistentId := some ⟨1⟩, location := some "file:///blue", rating := some rating }
    let list : LibraryRecord :=
      .playlist { persistentId := some ⟨32⟩, name := some "Mix", trackIds := [⟨1⟩] }
    let store := Store.empty.callAll [.sync options (record 20), .edit (.deleteTrack ⟨1⟩ "user")]
    let calls : List Call := [.sync options (record 40), .edit (.deletePlaylist ⟨32⟩ "user"),
      .stream options [.ok list, .ok (record 60), .ok (record 80)]]
    store.IsDeleted (some 1) .track ⟨1⟩ ∧
      (∀ before c, before ++ [c] <+: calls →
        c.Respects (some 1) .track ⟨1⟩ (store.callAll before)) ∧
      ∀ before, before <+: calls → (store.callAll before).IsDeleted (some 1) .track ⟨1⟩ := by
  intro options record list store calls
  have deleted : store.IsDeleted (some 1) .track ⟨1⟩ :=
    ⟨by decide +kernel, by decide +kernel⟩
  have respects (before : List Call) (c : Call) (whole : before ++ [c] <+: calls) :
      c.Respects (some 1) .track ⟨1⟩ (store.callAll before) := by
    have mem : c ∈ calls := whole.subset (by simp)
    simp only [calls, List.mem_cons, List.not_mem_nil, or_false] at mem
    rcases mem with rfl | rfl | rfl
    · exact ⟨rfl, by decide⟩
    · exact nofun
    · refine ⟨rfl, ?_, fun _ => ⟨record 60, by simp, rfl⟩⟩
      intro other mem
      simp only [List.mem_cons, List.not_mem_nil, or_false, Except.ok.injEq] at mem
      rcases mem with rfl | rfl | rfl <;> decide
  exact ⟨deleted, respects, stays_deleted (by decide) deleted respects⟩

end Store

end MusicLibrary
