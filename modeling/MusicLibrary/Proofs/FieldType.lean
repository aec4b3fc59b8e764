import Mathlib.Data.List.Nodup
import MusicLibrary.FieldType
import MusicLibrary.Proofs.Json.Fields
import MusicLibrary.Proofs.Json.Plain
import MusicLibrary.Proofs.PersistentId

/-! Families of fields read back. The members that are written for a family have distinct names,
one for each field that holds a value, so every field is found again under its name. -/

namespace MusicLibrary

namespace FieldType

theorem ofJson?_mediaKind (kind : MediaKind) : MediaKind.ofJson? kind.toJson = some kind := by
  rw [MediaKind.ofJson?, MediaKind.toJson, Json.uint32?_ofNat, Option.map_some]

/-- A value of a field is read from its JSON form. -/
theorem ofJson?_ofValue (type : FieldType) (v : type.Value) :
    type.ofJson? (type.toJson v) = some v := by
  cases type with
  | text => rfl
  | integer => exact Json.int64?_ofInt64 v
  | flag => rfl
  | time => exact Timestamp.ofJson?_toJson v
  | mediaKind => exact ofJson?_mediaKind v
  | id => exact PersistentId.ofJson?_toJson v

theorem toJson_ne_null (type : FieldType) (v : type.Value) : type.toJson v ≠ .null := by
  cases type <;> nofun

theorem isPlain_toJson (type : FieldType) (v : type.Value) : (type.toJson v).IsPlain := by
  cases type with
  | text => exact Json.isPlain_text v
  | integer => exact Json.isPlain_ofInt64 v
  | flag => exact Json.isPlain_boolean v
  | time => exact Json.isPlain_ofInt64 v.ms
  | mediaKind => exact Json.isPlain_ofNat (v.bits.toNat_lt.trans (by decide))
  | id => exact Json.isPlain_text v.hex

end FieldType

namespace FieldFamily

variable {F : Type} [FieldFamily F]

/-- The member for one field, if it holds a value. -/
def member? (value : Assignment F) (field : F) : Option (String × Json) :=
  (value field).map fun v => (label field, (type field).toJson v)

theorem sublist_labels (value : Assignment F) (fields : List F) :
    ((fields.filterMap (member? value)).map (·.1)).Sublist (fields.map label) := by
  induction fields with
  | nil => exact .slnil
  | cons field rest ih =>
    rw [List.filterMap_cons, List.map_cons, member?]
    cases value field with
    | none => exact ih.cons _
    | some v => exact ih.cons_cons _

theorem lookup_filterMap (injective : Function.Injective (label : F → String))
    (value : Assignment F) {field : F} {fields : List F} (mem : field ∈ fields) :
    (fields.filterMap (member? value)).lookup (label field) =
      (value field).map (type field).toJson := by
  induction fields with
  | nil => cases mem
  | cons head rest ih =>
    rw [List.filterMap_cons, member?]
    by_cases same : field = head
    · subst same
      cases held : value field with
      | some v => exact List.lookup_cons_self
      | none =>
        -- Without a value there is no member of the name, be the field listed again or not.
        apply List.lookup_eq_none_iff.2
        intro m later
        obtain ⟨other, -, eq⟩ := List.mem_filterMap.1 later
        obtain ⟨v, some, rfl⟩ := Option.map_eq_some_iff.1 eq
        rw [bne_iff_ne]
        intro label_eq
        obtain rfl := injective label_eq
        rw [held] at some
        cases some
    · have later := ih ((List.mem_cons.1 mem).resolve_left same)
      cases value head with
      | none => exact later
      | some v =>
        have different : (label field == label head) = false := by
          rw [beq_eq_false_iff_ne]
          exact fun label_eq => same (injective label_eq)
        rw [Option.map_some, List.lookup_cons, different]
        exact later

section

variable (distinct : (labels F).Nodup) (complete : ∀ field : F, field ∈ (all : List F))

include distinct complete

theorem label_injective : Function.Injective (label : F → String) := by
  intro a b same
  exact List.inj_on_of_nodup_map distinct (complete a) (complete b) same

/-- A field is read from the members that are written. -/
theorem readField_members (value : Assignment F) (field : F) :
    readField (members value) field = some (value field) := by
  have found := lookup_filterMap (label_injective distinct complete) value (complete field)
  change (members value).lookup (label field) = _ at found
  rw [readField]
  cases held : value field with
  | none =>
    rw [held] at found
    exact Json.Fields.optional_of_absent found
  | some v =>
    rw [held] at found
    rw [Json.Fields.optional_of_lookup found (FieldType.toJson_ne_null _ v),
      FieldType.ofJson?_ofValue]
    rfl

/-- All fields are read from the members that are written. -/
theorem read?_members (value : Assignment F) : read? (members value) = some value := by
  have each := readField_members distinct complete value
  have readable : ((all : List F).all fun field =>
      (readField (members value) field).isSome) = true := by
    rw [List.all_eq_true]
    intro field _
    rw [each field]
    rfl
  rw [read?, if_pos readable]
  congr 1
  funext field
  rw [each field]
  rfl

end

theorem isPlain_of_mem_members (value : Assignment F) {m : String × Json}
    (mem : m ∈ members value) : m.2.IsPlain := by
  obtain ⟨field, -, eq⟩ := List.mem_filterMap.1 mem
  obtain ⟨v, -, rfl⟩ := Option.map_eq_some_iff.1 eq
  exact FieldType.isPlain_toJson _ v

/-! Members of other names beside those of the family. -/

theorem fst_mem_labels (value : Assignment F) {m : String × Json} (mem : m ∈ members value) :
    m.1 ∈ labels F :=
  (sublist_labels value (all : List F)).subset (List.mem_map_of_mem mem)

/-- A name that is not one of the family is looked up beside it. -/
theorem lookup_members_append (value : Assignment F) (extra : Json.Fields) {name : String}
    (other : name ∉ labels F) : (members value ++ extra).lookup name = extra.lookup name := by
  have absent : (members value).lookup name = none := by
    apply List.lookup_eq_none_iff.2
    intro m mem
    rw [bne_iff_ne]
    rintro rfl
    exact other (fst_mem_labels value mem)
  rw [List.lookup_append, absent, Option.none_or]

section

variable {extra : Json.Fields} (others : ∀ m ∈ extra, m.1 ∉ labels F)

include others

theorem readField_append (fields : Json.Fields) {field : F} (listed : field ∈ (all : List F)) :
    readField (fields ++ extra) field = readField fields field := by
  have absent : extra.lookup (label field) = none := by
    apply List.lookup_eq_none_iff.2
    intro m mem
    rw [bne_iff_ne]
    intro same
    apply others m mem
    rw [← same]
    exact List.mem_map_of_mem listed
  rw [readField, readField, Json.Fields.optional, Json.Fields.optional, List.lookup_append, absent,
    Option.or_none]

theorem read?_members_append (distinct : (labels F).Nodup)
    (complete : ∀ field : F, field ∈ (all : List F)) (value : Assignment F) :
    read? (members value ++ extra) = some value := by
  rw [← read?_members distinct complete value, read?, read?]
  have same (field : F) : readField (members value ++ extra) field =
      readField (members value) field := readField_append others _ (complete field)
  simp only [same]

end

theorem fields?_members_append {extra : Json.Fields} (distinct : (labels F).Nodup)
    (others : ∀ m ∈ extra, m.1 ∉ labels F) (once : (extra.map (·.1)).Nodup) (value : Assignment F)
    {names : List String} (known : ∀ name ∈ labels F, name ∈ names)
    (knownExtra : ∀ m ∈ extra, m.1 ∈ names) :
    (Json.object (members value ++ extra)).fields? names = some (members value ++ extra) := by
  have listed : ∀ m ∈ members value ++ extra, m.1 ∈ names := by
    intro m mem
    rcases List.mem_append.1 mem with mem | mem
    · exact known m.1 (fst_mem_labels value mem)
    · exact knownExtra m mem
  have own : ((members value).map (·.1)).Nodup :=
    (sublist_labels value (all : List F)).nodup distinct
  have apart : ∀ name ∈ (members value).map (·.1), ∀ name' ∈ extra.map (·.1), name ≠ name' := by
    rintro name own name' mem rfl
    obtain ⟨m, written, rfl⟩ := List.mem_map.1 own
    obtain ⟨m', mem, same⟩ := List.mem_map.1 mem
    apply others m' mem
    rw [same]
    exact fst_mem_labels value written
  have nodup : ((members value ++ extra).map (·.1)).Nodup := by
    rw [List.map_append]
    exact List.nodup_append.2 ⟨own, once, apart⟩
  exact Json.fields?_object listed nodup

/-- The members that are written are the fields of a record, if its names are among those asked
for. -/
theorem fields?_members (distinct : (labels F).Nodup) (value : Assignment F) {names : List String}
    (known : ∀ name ∈ labels F, name ∈ names) :
    (Json.object (members value)).fields? names = some (members value) := by
  have whole := @fields?_members_append F _ [] distinct nofun .nil value names known nofun
  rwa [List.append_nil] at whole

end FieldFamily

end MusicLibrary
