import MusicLibrary.Proofs.FieldType
import MusicLibrary.Sync.Options
import MusicLibrary.Track.Import

/-! Track records read back. The JSON form of a record holds all of it but the number, which is of
no account outside its file; so the snapshot of a record stands for the record. -/

namespace MusicLibrary

namespace TrackRecord

theorem nodup_labels : (FieldFamily.labels Field).Nodup := by
  decide +kernel

/-- The record as it is told by its JSON form. -/
def unnumbered (record : TrackRecord) : TrackRecord := { record with number := none }

theorem ofJson?_toJson (record : TrackRecord) :
    ofJson? record.toJson = some record.unnumbered := by
  have fields : record.toJson.fields? (numberLabel :: FieldFamily.labels Field) =
      some (FieldFamily.members record.get) :=
    FieldFamily.fields?_members nodup_labels record.get fun name mem => List.mem_cons_of_mem _ mem
  have absent : (FieldFamily.members record.get).lookup numberLabel = none := by
    apply List.lookup_eq_none_iff.2
    intro m mem
    rw [bne_iff_ne]
    intro same
    have label : numberLabel ∈ FieldFamily.labels Field := by
      rw [same]
      exact FieldFamily.fst_mem_labels record.get mem
    exact absurd label (by decide +kernel)
  have number : Json.Fields.optional (FieldFamily.members record.get) numberLabel Json.int64? =
      some none := by
    rw [Json.Fields.optional, absent]
  have value := FieldFamily.read?_members nodup_labels Field.mem_all record.get
  rw [ofJson?, fields]
  simp only [Option.bind_eq_bind, Option.bind_some, number]
  change (FieldFamily.read? (FieldFamily.members record.get) >>= _) = _
  rw [value]
  rfl

theorem parse?_compact (record : TrackRecord) :
    Json.parse? record.toJson.compact = some record.toJson :=
  (Json.isPlain_object fun _ => FieldFamily.isPlain_of_mem_members record.get).parse?_compact

/-- A snapshot is read as the record that it was made of. -/
theorem read_compact (record : TrackRecord) :
    (Json.parse? record.toJson.compact).bind ofJson? = some record.unnumbered := by
  rw [parse?_compact, Option.bind_some, ofJson?_toJson]

theorem recordOf_compact {record : TrackRecord} {id : PersistentId}
    (name : record.persistentId = some id) :
    Sync.recordOf ofJson? (·.persistentId) record.toJson.compact = .ok (id, record.unnumbered) := by
  have named : record.unnumbered.persistentId = some id := name
  rw [Sync.recordOf, read_compact]
  simp only [named]

end TrackRecord

@[simp] theorem Track.ofRecord_unnumbered (id : PersistentId) (record : TrackRecord) :
    Track.ofRecord id record.unnumbered = Track.ofRecord id record := rfl

end MusicLibrary
