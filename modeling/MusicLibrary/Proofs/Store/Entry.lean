import MusicLibrary.Proofs.PersistentId
import MusicLibrary.Proofs.Store.History

/-! The entries of a store, tracks and playlists alike: what a transaction may write and move of
them, and the row that a store has of one. -/

namespace MusicLibrary

/-- The snapshot that a transaction may move. -/
def Transaction.baseline? : Transaction → Option SnapshotKey
  | .edit _ => none
  | .sync options record =>
    record.persistentId.map fun id => ⟨record.kind, options.owner, id.hex⟩
  | .pruneTrack options key => some ⟨.track, options.owner, key⟩
  | .prunePlaylist options key => some ⟨.playlist, options.owner, key⟩

def LibraryRecord.subject? (record : LibraryRecord) : Option (EntityKind × PersistentId) :=
  record.persistentId.map fun id => (record.kind, id)

theorem LibraryRecord.subject?_of_named (record : LibraryRecord) {id : PersistentId}
    (name : record.persistentId = some id) : record.subject? = some (record.kind, id) := by
  rw [subject?, name]
  rfl

/-- The entry whose row a transaction may write. -/
def Transaction.written? : Transaction → Option (EntityKind × PersistentId)
  | .edit (.saveTrack track _) => some (.track, track.id)
  | .edit (.savePlaylist playlist _) => some (.playlist, playlist.id)
  | .sync _ record => record.subject?
  | _ => none

/-- The transaction neither moves the baseline of an entry nor writes its row. -/
structure Transaction.IsForeign (t : Transaction) (owner : Option Int64) (kind : EntityKind)
    (id : PersistentId) : Prop where
  baseline : t.baseline? ≠ some ⟨kind, owner, id.hex⟩
  row : ∀ named, t.written? = some (kind, named) → named.key ≠ id.key

/-- A record of another entry touches neither the baseline nor the row of this one. -/
theorem Transaction.isForeign_sync {options : Sync.Options} {record : LibraryRecord}
    {owner : Option Int64} {kind : EntityKind} {id : PersistentId} (kept : id ≠ .highBit)
    (named : record.persistentId ≠ some .highBit) (other : record.subject? ≠ some (kind, id)) :
    (Transaction.sync options record).IsForeign owner kind id := by
  refine ⟨?_, ?_⟩
  · intro baseline
    obtain ⟨own, name, same⟩ := Option.map_eq_some_iff.1 baseline
    rw [SnapshotKey.mk.injEq] at same
    obtain rfl := PersistentId.hex_injective same.2.2
    apply other
    rw [LibraryRecord.subject?_of_named record name, same.1]
  · intro own written key
    obtain ⟨_, name, same⟩ := Option.map_eq_some_iff.1 written
    cases same
    have low : own ≠ .highBit := by
      rintro rfl
      exact named name
    obtain rfl := PersistentId.eq_of_key_eq low kept key
    exact other (LibraryRecord.subject?_of_named record name)

/-- The row of an entry of either kind. -/
inductive EntryRow where
  | track (track : Track)
  | playlist (row : PlaylistRow)
  deriving DecidableEq

namespace Store

def row? (store : Store) : EntityKind → PersistentId → Option EntryRow
  | .track, id => (store.track? id).map .track
  | .playlist, id => (store.playlists.find? id.key).map .playlist

variable {store next : Store}

theorem row?_track_eq_none {id : PersistentId} :
    store.row? .track id = none ↔ store.track? id = none := Option.map_eq_none_iff

theorem row?_playlist_eq_none {id : PersistentId} :
    store.row? .playlist id = none ↔ store.playlist? id = .ok none := by
  rw [row?, Option.map_eq_none_iff, playlist?]
  cases store.playlists.find? id.key with
  | none => simp
  | some row => cases read : row.playlist? (store.trackIds id) <;> simp [read, told, Except.map]

end Store

end MusicLibrary
