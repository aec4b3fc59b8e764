import MusicLibrary.Playlist.Import
import MusicLibrary.Proofs.FieldType
import MusicLibrary.Sync.Options

/-! Playlist records read back. The JSON form of a record holds all of it but the number; the
tracks, if there are any, stand behind the fields under a name of their own. -/

namespace MusicLibrary

namespace PlaylistRecord

theorem nodup_labels : (FieldFamily.labels Field).Nodup := by
  decide +kernel

theorem numberLabel_not_mem : numberLabel ∉ FieldFamily.labels Field := by
  decide +kernel

theorem trackIdsLabel_not_mem : trackIdsLabel ∉ FieldFamily.labels Field := by
  decide +kernel

/-- The record as it is told by its JSON form. -/
def unnumbered (record : PlaylistRecord) : PlaylistRecord := { record with number := none }

/-- The member for the tracks, if there are any. -/
def trackMembers (record : PlaylistRecord) : Json.Fields :=
  if record.trackIds.isEmpty then []
  else [(trackIdsLabel, .array (record.trackIds.map PersistentId.toJson))]

theorem toJson_eq (record : PlaylistRecord) :
    record.toJson = .object (FieldFamily.members record.get ++ record.trackMembers) := rfl

variable (record : PlaylistRecord)

theorem mem_trackMembers {m : String × Json} (mem : m ∈ record.trackMembers) :
    m = (trackIdsLabel, .array (record.trackIds.map PersistentId.toJson)) := by
  unfold trackMembers at mem
  split at mem
  · cases mem
  · exact List.mem_singleton.1 mem

theorem fst_trackMembers {m : String × Json} (mem : m ∈ record.trackMembers) :
    m.1 = trackIdsLabel := by
  rw [record.mem_trackMembers mem]

theorem nodup_trackMembers : (record.trackMembers.map (·.1)).Nodup := by
  unfold trackMembers
  split
  · exact .nil
  · exact List.nodup_singleton _

theorem ofJson?_toJson : ofJson? record.toJson = some record.unnumbered := by
  have others (m : String × Json) (mem : m ∈ record.trackMembers) :
      m.1 ∉ FieldFamily.labels Field := by
    rw [record.fst_trackMembers mem]
    exact trackIdsLabel_not_mem
  have fields : record.toJson.fields? (numberLabel :: FieldFamily.labels Field ++ [trackIdsLabel]) =
      some (FieldFamily.members record.get ++ record.trackMembers) := by
    apply FieldFamily.fields?_members_append nodup_labels others record.nodup_trackMembers
    · intro name mem
      exact List.mem_append_left _ (List.mem_cons_of_mem _ mem)
    · intro m mem
      rw [record.fst_trackMembers mem]
      exact List.mem_append_right _ List.mem_cons_self
  have number : Json.Fields.optional (FieldFamily.members record.get ++ record.trackMembers)
      numberLabel Json.int64? = some none := by
    have absent : record.trackMembers.lookup numberLabel = none := by
      apply List.lookup_eq_none_iff.2
      intro m mem
      rw [record.fst_trackMembers mem]
      decide
    rw [Json.Fields.optional, FieldFamily.lookup_members_append _ _ numberLabel_not_mem, absent]
  have value := FieldFamily.read?_members_append others nodup_labels Field.mem_all record.get
  have tracks : Json.Fields.orElse (FieldFamily.members record.get ++ record.trackMembers)
      trackIdsLabel (Json.list? PersistentId.ofJson?) [] = some record.trackIds := by
    rw [Json.Fields.orElse, FieldFamily.lookup_members_append _ _ trackIdsLabel_not_mem,
      trackMembers]
    cases listed : record.trackIds with
    | nil => rfl
    | cons id rest => exact Json.list?_map PersistentId.ofJson?_toJson (id :: rest)
  rw [ofJson?, fields]
  simp only [Option.bind_eq_bind, Option.bind_some, number]
  change (FieldFamily.read? (FieldFamily.members record.get ++ record.trackMembers) >>= _) = _
  rw [value]
  simp only [Option.bind_eq_bind, Option.bind_some, tracks]
  rfl

theorem parse?_compact : Json.parse? record.toJson.compact = some record.toJson := by
  rw [toJson_eq]
  apply Json.IsPlain.parse?_compact
  apply Json.isPlain_object
  intro m mem
  rcases List.mem_append.1 mem with mem | mem
  · exact FieldFamily.isPlain_of_mem_members record.get mem
  · rw [record.mem_trackMembers mem]
    apply Json.isPlain_array
    intro j mem
    obtain ⟨id, _, rfl⟩ := List.mem_map.1 mem
    exact FieldType.isPlain_toJson .id id

/-- A snapshot is read as the record that it was made of. -/
theorem read_compact :
    (Json.parse? record.toJson.compact).bind ofJson? = some record.unnumbered := by
  rw [parse?_compact, Option.bind_some, ofJson?_toJson]

theorem recordOf_compact {id : PersistentId} (name : record.persistentId = some id) :
    Sync.recordOf ofJson? (·.persistentId) record.toJson.compact = .ok (id, record.unnumbered) := by
  have named : record.unnumbered.persistentId = some id := name
  rw [Sync.recordOf, read_compact]
  simp only [named]

end PlaylistRecord

@[simp] theorem Playlist.ofRecord_unnumbered (id : PersistentId) (record : PlaylistRecord) :
    Playlist.ofRecord id record.unnumbered = Playlist.ofRecord id record := rfl

end MusicLibrary
