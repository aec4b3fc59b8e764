import MusicLibrary.Proofs.Smart.JsonForm

/-! Smart playlists from their JSON text. Whatever rules hold is plain: texts, flags and integers of
sixty-four bits, in arrays and objects. Main statement: a smart playlist is read from its text as
it was, if its codes are canonical and its rule sets no deeper than reading goes. -/

namespace MusicLibrary

namespace Json

variable {α : Type} (name : String)

theorem hasPlainValue_some {j : Json} (plain : j.IsPlain) : HasPlainValue (some (name, j)) := by
  rintro m ⟨⟩
  exact plain

theorem hasPlainValue_member {write : α → Json} (plain : ∀ x, (write x).IsPlain)
    (value : Option α) : HasPlainValue (member name write value) := by
  cases value with
  | none => nofun
  | some x => exact hasPlainValue_some name (plain x)

end Json

namespace Smart

open Json (HasPlainValue)

section

variable {α : Type} (name : String)

theorem hasPlainValue_listMember {write : α → Json} (plain : ∀ x, (write x).IsPlain)
    (items : List α) : HasPlainValue (listMember name write items) := by
  cases items with
  | nil => nofun
  | cons x rest =>
    apply Json.hasPlainValue_some
    apply Json.isPlain_array
    intro j mem
    obtain ⟨y, -, rfl⟩ := List.mem_map.1 mem
    exact plain y

theorem hasPlainValue_flagMember (flag : Bool) : HasPlainValue (flagMember name flag) := by
  cases flag with
  | false => nofun
  | true => exact Json.hasPlainValue_some name (Json.isPlain_boolean true)

end

section

variable {V : Type} (kind : String) (c : Condition V)

theorem hasPlainValue_head {member : Option (String × Json)} (mem : member ∈ c.head kind) :
    HasPlainValue member := by
  simp only [Condition.head, List.mem_cons, List.not_mem_nil, or_false] at mem
  obtain rfl | rfl | rfl | rfl := mem
  · exact Json.hasPlainValue_some _ (Json.isPlain_text kind)
  · exact Json.hasPlainValue_some _ (Json.isPlain_text c.field.label)
  · exact Json.hasPlainValue_some _ (Json.isPlain_text c.sign.label)
  · exact Json.hasPlainValue_some _ (Json.isPlain_text c.operator.label)

theorem isPlain_leaf {value : Option (String × Json)} (plain : HasPlainValue value) :
    (Json.ofMembers (c.head kind ++ [value])).IsPlain := by
  apply Json.isPlain_ofMembers
  intro member mem
  rcases List.mem_append.1 mem with mem | mem
  · exact hasPlainValue_head kind c mem
  · rwa [List.mem_singleton.1 mem]

end

theorem RuleSet.isPlain_toJson {set : RuleSet}
    (each : ∀ rule ∈ set.rules, rule.toJson.IsPlain) : set.toJson.IsPlain := by
  have rules : (Json.array (set.rules.map Rule.toJson)).IsPlain := by
    apply Json.isPlain_array
    intro j mem
    obtain ⟨rule, among, rfl⟩ := List.mem_map.1 mem
    exact each rule among
  apply Json.isPlain_object
  intro m mem
  simp only [List.mem_cons, List.not_mem_nil, or_false] at mem
  obtain rfl | rfl := mem
  · exact Json.isPlain_text _
  · exact rules

theorem Rule.isPlain_toJson (rule : Rule) : rule.toJson.IsPlain := by
  induction rule using Rule.induct with
  | group conjunction rules ih =>
    have set : (RuleSet.mk conjunction rules).toJson.IsPlain := RuleSet.isPlain_toJson ih
    rw [Rule.toJson_group]
    apply Json.isPlain_object
    intro m mem
    simp only [List.mem_cons, List.not_mem_nil, or_false] at mem
    obtain rfl | rfl | rfl | rfl := mem
    · exact Json.isPlain_text _
    · exact set
    · exact Json.isPlain_text _
    · exact Json.isPlain_text _
  | text c => exact isPlain_leaf _ c (hasPlainValue_listMember _ Json.isPlain_text c.value)
  | integer c => exact isPlain_leaf _ c (hasPlainValue_listMember _ Json.isPlain_ofInt64 c.value)
  | date c =>
    exact isPlain_leaf _ c (hasPlainValue_listMember _ (FieldType.isPlain_toJson .time) c.value)
  | flag c => exact isPlain_leaf _ c (Json.hasPlainValue_member _ Json.isPlain_boolean c.value)
  | mediaKind c =>
    exact isPlain_leaf _ c
      (Json.hasPlainValue_member _ (FieldType.isPlain_toJson .mediaKind) c.value)
  | playlist c =>
    exact isPlain_leaf _ c (Json.hasPlainValue_member _ (FieldType.isPlain_toJson .id) c.value)
  | unknown c =>
    exact Json.isPlain_ofMembers fun _ mem => hasPlainValue_head _ c mem

theorem Limit.isPlain_toJson (limit : Limit) : limit.toJson.IsPlain := by
  have number (n : UInt64) : (Json.ofNat n.toNat).IsPlain := Json.isPlain_ofNat n.toNat_lt
  apply Json.isPlain_ofMembers
  intro member mem
  simp only [List.mem_cons, List.not_mem_nil, or_false] at mem
  obtain rfl | rfl | rfl | rfl | rfl := mem
  · exact Json.hasPlainValue_member _ number _
  · exact Json.hasPlainValue_member _ number _
  · exact Json.hasPlainValue_member _ number _
  · exact Json.hasPlainValue_some _ (Json.isPlain_text limit.field.label)
  · exact hasPlainValue_flagMember _ _

theorem isPlain_toJson (smart : Smart) : smart.toJson.IsPlain := by
  have ruleset : smart.ruleset.toJson.IsPlain :=
    RuleSet.isPlain_toJson fun rule _ => rule.isPlain_toJson
  apply Json.isPlain_ofMembers
  intro member mem
  simp only [List.mem_cons, List.not_mem_nil, or_false] at mem
  obtain rfl | rfl | rfl | rfl := mem
  · exact Json.hasPlainValue_some _ ruleset
  · exact Json.hasPlainValue_member _ Limit.isPlain_toJson _
  · exact hasPlainValue_flagMember _ _
  · exact hasPlainValue_flagMember _ _

/-- A smart playlist is read from its text as it was, be the text on one line or indented. Reading
goes forty-one rule sets deep; how deep arrays and objects are nested is all it asks for. -/
theorem read_text_of_canonical {smart : Smart} (canonical : smart.IsCanonical)
    (nested : smart.ruleset.height ≤ 41) :
    (Json.parse? smart.toJson.compact).bind Smart.ofJson? = some smart ∧
      (Json.parse? smart.toJson.indented).bind Smart.ofJson? = some smart := by
  have read : Smart.ofJson? smart.toJson = some smart := ofJson?_toJson canonical nested
  have plain : smart.toJson.IsPlain := smart.isPlain_toJson
  rw [plain.parse?_compact, plain.parse?_indented]
  exact ⟨read, read⟩

/-- Rules beyond the binary form: an unknown one with codes that have no name, an inner rule set
that holds the smallest integer and a text with a quote and a control character, and rules without
values. -/
def beyondBinary : Smart where
  ruleset :=
    ⟨.or, [.unknown ⟨.other 0xdead, .other 0x7f, .other 0xffff, ()⟩,
      .group .and [.integer ⟨.rating, .pos, .between, [-9223372036854775808, 80]⟩,
        .group .or [], .text ⟨.genre, .strNeg, .contains, ["\"Ambient\"\n", ""]⟩],
      .date ⟨.playDate, .pos, .is, []⟩, .playlist ⟨.name, .neg, .is, some .highBit⟩]⟩
  limit := some ⟨.time 18446744073709551615, .other 0x30, true⟩
  checkedOnly := true

theorem isCanonical_beyondBinary : beyondBinary.IsCanonical where
  rules := by
    intro rule mem
    simp only [beyondBinary, List.mem_cons, List.not_mem_nil, or_false] at mem
    rcases mem with rfl | rfl | rfl | rfl
    · refine .unknown ⟨?_, ?_, ?_⟩ <;>
      · rintro code ⟨⟩
        decide
    · refine .group ?_
      intro rule mem
      simp only [List.mem_cons, List.not_mem_nil, or_false] at mem
      rcases mem with rfl | rfl | rfl
      · exact .integer ⟨nofun, nofun, nofun⟩
      · exact .group nofun
      · exact .text ⟨nofun, nofun, nofun⟩
    · exact .date ⟨nofun, nofun, nofun⟩
    · exact .playlist ⟨nofun, nofun, nofun⟩
  limit := by
    rintro limit ⟨⟩ code ⟨⟩
    decide

theorem read_text_beyondBinary :
    beyondBinary.IsCanonical ∧ beyondBinary.ruleset.height = 3 ∧
      (Json.parse? beyondBinary.toJson.compact).bind Smart.ofJson? = some beyondBinary ∧
      (Json.parse? beyondBinary.toJson.indented).bind Smart.ofJson? = some beyondBinary :=
  ⟨isCanonical_beyondBinary, by decide,
    read_text_of_canonical isCanonical_beyondBinary (by decide)⟩

end Smart

end MusicLibrary
