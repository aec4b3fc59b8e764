import MusicLibrary.Proofs.Sync.RowFrame
import MusicLibrary.Proofs.Sync.SnapshotFrame

/-! What a transaction leaves alone. It writes the row of one entry at most and moves one baseline
at most; of any other entry the baseline stays, and the row stays or is taken out. -/

namespace MusicLibrary.Store

variable {store next : Store}

/-- Behind a change an entry has the same baseline, and the same row or no row any more. -/
structure Spares (owner : Option Int64) (kind : EntityKind) (id : PersistentId)
    (store next : Store) : Prop where
  baseline : next.snapshot? kind owner id.hex = store.snapshot? kind owner id.hex
  row : next.row? kind id = store.row? kind id ∨ next.row? kind id = none

variable {owner : Option Int64} {kind : EntityKind} {id : PersistentId}

theorem Spares.refl (store : Store) : Spares owner kind id store store := ⟨rfl, .inl rfl⟩

theorem Spares.trans {last : Store} (first : Spares owner kind id store next)
    (second : Spares owner kind id next last) : Spares owner kind id store last := by
  refine ⟨second.baseline.trans first.baseline, ?_⟩
  rcases second.row with same | gone
  · rw [same]
    exact first.row
  · exact .inr gone

theorem spares_commit {t : Transaction} (foreign : t.IsForeign owner kind id) :
    Spares owner kind id store (store.commit t) := by
  refine ⟨snapshot?_commit_of_ne foreign.baseline, ?_⟩
  cases kind with
  | track =>
    rcases track?_commit_of_ne foreign.row with same | gone
    · exact .inl (congrArg (Option.map EntryRow.track) same)
    · exact .inr (congrArg (Option.map EntryRow.track) gone)
  | playlist =>
    rcases playlist_row_commit_of_ne foreign.row with same | gone
    · exact .inl (congrArg (Option.map EntryRow.playlist) same)
    · exact .inr (congrArg (Option.map EntryRow.playlist) gone)

theorem spares_run {ts : List Transaction} (foreign : ∀ t ∈ ts, t.IsForeign owner kind id) :
    Spares owner kind id store (store.run ts) := by
  apply run_induction (P := Spares owner kind id store)
  · intro t mem before spared
    exact spared.trans (spares_commit (foreign t mem))
  · exact .refl store

end MusicLibrary.Store
