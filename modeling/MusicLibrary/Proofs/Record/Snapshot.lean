import MusicLibrary.Proofs.Record.Playlist
import MusicLibrary.Proofs.Record.Track

/-! Snapshots stand for their records. What is kept of a record to tell changes by is its text, and
the text determines all of the record but its number; so a merge starts from the same base whether
it has the record or only the snapshot. -/

namespace MusicLibrary.Sync

section

variable {α : Type} {read : Json → Option α} {write : α → Json} {clear : α → α}

/-- Texts that are read back tell values apart as far as reading recovers them. -/
theorem compact_eq_iff (inverse : ∀ x, (Json.parse? (write x).compact).bind read = some (clear x))
    (cleared : ∀ x, write (clear x) = write x) (x y : α) :
    (write x).compact = (write y).compact ↔ clear x = clear y := by
  constructor
  · intro same
    have values : some (clear x) = some (clear y) := by
      rw [← inverse x, same, inverse y]
    exact Option.some.inj values
  · intro same
    rw [← cleared x, same, cleared y]

/-- A record by its name, which it has to have. -/
def named (id : α → Option PersistentId) (record : α) : Except Failure (PersistentId × α) :=
  match id record with
  | none => .error .missingPersistentId
  | some name => .ok (name, record)

theorem recordOf_of_read {data : String} {record : α}
    (readable : (Json.parse? data).bind read = some record) (id : α → Option PersistentId) :
    recordOf read id data = named id record := by
  rw [recordOf, readable]
  rfl

/-- What is made of a record and its name is made of a reading of its snapshot, if it is the same
for the record as it was read. -/
theorem map_recordOf_compact {β : Type}
    (inverse : ∀ x, (Json.parse? (write x).compact).bind read = some (clear x))
    {id : α → Option PersistentId} (kept : ∀ x, id (clear x) = id x)
    {make : PersistentId → α → β} (made : ∀ name x, make name (clear x) = make name x)
    (record : α) :
    (recordOf read id (write record).compact).map (fun base => make base.1 base.2) =
      (named id record).map (fun base => make base.1 base.2) := by
  rw [recordOf_of_read (inverse record), named, named, kept]
  cases id record with
  | none => rfl
  | some name => exact congrArg Except.ok (made name record)

end

/-- The snapshot of a record is read as the record without its number; records have equal snapshots
if and only if they agree on all but the number; and the base of a merge is the same, be it made
of the snapshot or of the record, which has to name itself either way. -/
theorem snapshot_identifies_record :
    ((∀ record : TrackRecord, (Json.parse? record.toJson.compact).bind TrackRecord.ofJson? =
        some { record with number := none }) ∧
      (∀ a b : TrackRecord,
        a.toJson.compact = b.toJson.compact ↔ { a with number := b.number } = b) ∧
      ∀ record : TrackRecord,
        (recordOf TrackRecord.ofJson? (·.persistentId) record.toJson.compact).map
            (fun base => Track.ofRecord base.1 base.2) =
          (named (·.persistentId) record).map fun base => Track.ofRecord base.1 base.2) ∧
    ((∀ record : PlaylistRecord, (Json.parse? record.toJson.compact).bind PlaylistRecord.ofJson? =
        some { record with number := none }) ∧
      (∀ a b : PlaylistRecord,
        a.toJson.compact = b.toJson.compact ↔ { a with number := b.number } = b) ∧
      ∀ record : PlaylistRecord,
        (recordOf PlaylistRecord.ofJson? (·.persistentId) record.toJson.compact).map
            (fun base => Playlist.ofRecord base.1 base.2) =
          (named (·.persistentId) record).map fun base => Playlist.ofRecord base.1 base.2) := by
  have tracks (a b : TrackRecord) :
      a.unnumbered = b.unnumbered ↔ { a with number := b.number } = b := by
    cases a
    cases b
    simp [TrackRecord.unnumbered]
  have playlists (a b : PlaylistRecord) :
      a.unnumbered = b.unnumbered ↔ { a with number := b.number } = b := by
    cases a
    cases b
    simp [PlaylistRecord.unnumbered]
  refine ⟨⟨TrackRecord.read_compact, ?_, ?_⟩, PlaylistRecord.read_compact, ?_, ?_⟩
  · intro a b
    exact (compact_eq_iff TrackRecord.read_compact (fun _ => rfl) a b).trans (tracks a b)
  · exact map_recordOf_compact TrackRecord.read_compact (fun _ => rfl) fun _ _ => rfl
  · intro a b
    exact (compact_eq_iff PlaylistRecord.read_compact (fun _ => rfl) a b).trans (playlists a b)
  · exact map_recordOf_compact PlaylistRecord.read_compact (fun _ => rfl) fun _ _ => rfl

end MusicLibrary.Sync
