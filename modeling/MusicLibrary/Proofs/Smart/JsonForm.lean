import MusicLibrary.Proofs.FieldType
import MusicLibrary.Proofs.Smart.Names
import MusicLibrary.Smart.Json

/-! The JSON form of smart playlists read back. All kinds of rules share one shape, of which a rule
leaves out what it does not hold; with the head read from its names and the values from the one
member behind it, every rule comes back, and rule sets inside it as far as brackets may be nested.
Main statement: a smart playlist is read from its JSON form as it was. -/

namespace MusicLibrary.Smart

/-! Canonical forms. -/

/-- The head of a rule has codes that have names under their names. -/
structure Condition.IsCanonical {V : Type} (c : Condition V) : Prop where
  field : Canonical Field.named Field.code Field.other c.field
  sign : Canonical Sign.named Sign.code Sign.other c.sign
  operator : Canonical Operator.named Operator.code Operator.other c.operator

inductive Rule.IsCanonical : Rule → Prop
  | group {conjunction rules} (all : ∀ rule ∈ rules, IsCanonical rule) :
    IsCanonical (.group conjunction rules)
  | text {c} (head : c.IsCanonical) : IsCanonical (.text c)
  | integer {c} (head : c.IsCanonical) : IsCanonical (.integer c)
  | flag {c} (head : c.IsCanonical) : IsCanonical (.flag c)
  | date {c} (head : c.IsCanonical) : IsCanonical (.date c)
  | mediaKind {c} (head : c.IsCanonical) : IsCanonical (.mediaKind c)
  | playlist {c} (head : c.IsCanonical) : IsCanonical (.playlist c)
  | unknown {c} (head : c.IsCanonical) : IsCanonical (.unknown c)

mutual

/-- How many rule sets are nested in a rule. -/
def Rule.height : Rule → Nat
  | .group _ rules => 1 + heightOfRules rules
  | _ => 0
termination_by structural rule => rule

def heightOfRules : List Rule → Nat
  | [] => 0
  | rule :: rest => max rule.height (heightOfRules rest)
termination_by structural rules => rules

end

/-- How many rule sets are nested, the outermost one included. -/
def RuleSet.height (set : RuleSet) : Nat := 1 + heightOfRules set.rules

theorem height_le_of_mem {rule : Rule} {rules : List Rule} (mem : rule ∈ rules) :
    rule.height ≤ heightOfRules rules := by
  induction rules with
  | nil => cases mem
  | cons head rest ih =>
    rw [heightOfRules]
    rcases List.mem_cons.1 mem with rfl | mem
    · exact Nat.le_max_left ..
    · exact (ih mem).trans (Nat.le_max_right ..)

/-! The head of a rule, and its values behind it. -/

section

variable {V : Type} (kind : String) (c : Condition V)

def Condition.headFields : Json.Fields :=
  [("type", .text kind), ("field", c.field.toJson), ("sign", c.sign.toJson),
   ("op", c.operator.toJson)]

def headLabels : List String := ["type", "field", "sign", "op"]

def valueLabels : List String := ["strings", "ints", "times", "bool", "media_kind", "playlist"]

theorem filterMap_head (value : Option (String × Json)) :
    (c.head kind ++ [value]).filterMap id = c.headFields kind ++ value.toList := by
  cases value <;> rfl

theorem labelled_head : Json.Labelled headLabels (c.head kind) := by
  have label (name : String) (j : Json) : ∀ m ∈ some (name, j), m.1 = name := by
    rintro m ⟨⟩
    rfl
  exact .cons (label _ _) (.cons (label _ _) (.cons (label _ _) (.cons (label _ _) .nil)))

/-- The members of a rule are told apart by their names. -/
theorem fields?_leaf {value : Option (String × Json)} {name : String}
    (label : ∀ m ∈ value, m.1 = name) (known : name ∈ valueLabels) :
    (Json.ofMembers (c.head kind ++ [value])).fields? ruleLabels =
      some (c.headFields kind ++ value.toList) := by
  have listed : ∀ name ∈ valueLabels, headLabels ++ [name] ⊆ ruleLabels := by decide
  have apart : ∀ name ∈ valueLabels, (headLabels ++ [name]).Nodup := by decide
  have labels : Json.Labelled (headLabels ++ [name]) (c.head kind ++ [value]) :=
    List.rel_append (labelled_head kind c) (.cons label .nil)
  rw [Json.fields?_ofMembers labels (listed name known) (apart name known), filterMap_head]

end

section

variable {V : Type} {c : Condition V} (h : c.IsCanonical)

include h

theorem Condition.IsCanonical.read_field : Field.ofJson? c.field.toJson = some c.field :=
  Field.ofLabel?_label h.field

theorem Condition.IsCanonical.read_sign : Sign.ofJson? c.sign.toJson = some c.sign :=
  Sign.ofLabel?_label h.sign

theorem Condition.IsCanonical.read_operator :
    Operator.ofJson? c.operator.toJson = some c.operator :=
  Operator.ofLabel?_label h.operator

end

section

variable {α : Type} (name : String) {write : α → Json}

theorem label_of_listMember (write : α → Json) (items : List α) :
    ∀ m ∈ listMember name write items, m.1 = name := by
  cases items with
  | nil => nofun
  | cons x rest =>
    rintro m ⟨⟩
    rfl

theorem orElse_listMember {read : Json → Option α} (inverse : ∀ x, read (write x) = some x)
    (items : List α) :
    Json.Fields.orElse (listMember name write items).toList name (Json.list? read) [] =
      some items := by
  cases items with
  | nil => rfl
  | cons x rest =>
    change Json.Fields.orElse [(name, .array ((x :: rest).map write))] _ _ _ = _
    rw [Json.Fields.orElse_cons_self, Json.list?_map inverse]

end

/-! The kinds of rules. -/

section

variable {V : Type} {c : Condition V}

/-- The head of a rule is read by itself, and the values of all kinds from what is behind it. -/
theorem ruleOfJson?_of_head (h : c.IsCanonical) (room : Nat) {j : Json} {kind : String}
    {rest : Json.Fields} (shape : j.fields? ruleLabels = some (c.headFields kind ++ rest))
    (plain : rest.lookup "ruleset" = none) :
    ruleOfJson? (room + 2) j = (do
      let strings ← rest.orElse "strings" (Json.list? Json.text?) []
      let ints ← rest.orElse "ints" (Json.list? Json.int64?) []
      let times ← rest.orElse "times" (Json.list? Timestamp.ofJson?) []
      let bool ← rest.optional "bool" Json.boolean?
      let mediaKind ← rest.optional "media_kind" MediaKind.ofJson?
      let playlist ← rest.optional "playlist" PersistentId.ofJson?
      match kind with
      | "ruleset" => some (.group .and [])
      | "string" => some (.text ⟨c.field, c.sign, c.operator, strings⟩)
      | "int" => some (.integer ⟨c.field, c.sign, c.operator, ints⟩)
      | "boolean" => some (.flag ⟨c.field, c.sign, c.operator, bool⟩)
      | "date" => some (.date ⟨c.field, c.sign, c.operator, times⟩)
      | "mediakind" => some (.mediaKind ⟨c.field, c.sign, c.operator, mediaKind⟩)
      | "playlist" => some (.playlist ⟨c.field, c.sign, c.operator, playlist⟩)
      | "unknown" => some (.unknown ⟨c.field, c.sign, c.operator, ()⟩)
      | _ => none) := by
  have type : Json.Fields.required (c.headFields kind ++ rest) "type" Json.text? =
      some kind := rfl
  have ruleset : Json.Fields.optional (c.headFields kind ++ rest) "ruleset"
      (ruleSetOfJson? (room + 1)) = some none := Json.Fields.optional_of_absent plain
  have field : Json.Fields.optional (c.headFields kind ++ rest) "field" Field.ofJson? =
      some (some c.field) := by
    have found : (c.headFields kind ++ rest).lookup "field" = some c.field.toJson := rfl
    have held : c.field.toJson ≠ .null := nofun
    rw [Json.Fields.optional_of_lookup found held, h.read_field, Option.map_some]
  have sign : Json.Fields.orElse (c.headFields kind ++ rest) "sign" Sign.ofJson? .pos =
      some c.sign := h.read_sign
  have operator : Json.Fields.orElse (c.headFields kind ++ rest) "op" Operator.ofJson? .is =
      some c.operator := h.read_operator
  rw [ruleOfJson?, shape, Option.bind_eq_bind, Option.bind_some]
  rw [type, Option.bind_eq_bind, Option.bind_some]
  rw [ruleset, Option.bind_eq_bind, Option.bind_some]
  rw [field, Option.bind_eq_bind, Option.bind_some]
  rw [sign, Option.bind_eq_bind, Option.bind_some]
  rw [operator, Option.bind_eq_bind, Option.bind_some]
  rfl

end

theorem ruleOfJson?_text (room : Nat) {c : Condition (List String)} (h : c.IsCanonical) :
    ruleOfJson? (room + 2) (Rule.text c).toJson = some (.text c) := by
  have label := label_of_listMember "strings" Json.text c.value
  have inverse (x : String) : Json.text? (Json.text x) = some x := rfl
  have values := orElse_listMember "strings" inverse c.value
  rw [Rule.toJson, ruleOfJson?_of_head h room (fields?_leaf "string" c label (by decide))
    (Json.Fields.lookup_toList_of_ne label (by decide))]
  simp (disch := decide) only [Json.Fields.optional_toList_of_ne label,
    Json.Fields.orElse_toList_of_ne label, values, Option.bind_eq_bind, Option.bind_some]

theorem ruleOfJson?_integer (room : Nat) {c : Condition (List Int64)} (h : c.IsCanonical) :
    ruleOfJson? (room + 2) (Rule.integer c).toJson = some (.integer c) := by
  have label := label_of_listMember "ints" Json.ofInt64 c.value
  have values := orElse_listMember "ints" Json.int64?_ofInt64 c.value
  rw [Rule.toJson, ruleOfJson?_of_head h room (fields?_leaf "int" c label (by decide))
    (Json.Fields.lookup_toList_of_ne label (by decide))]
  simp (disch := decide) only [Json.Fields.optional_toList_of_ne label,
    Json.Fields.orElse_toList_of_ne label, values, Option.bind_eq_bind, Option.bind_some]

theorem ruleOfJson?_date (room : Nat) {c : Condition (List Timestamp)} (h : c.IsCanonical) :
    ruleOfJson? (room + 2) (Rule.date c).toJson = some (.date c) := by
  have label := label_of_listMember "times" Timestamp.toJson c.value
  have values := orElse_listMember "times" Timestamp.ofJson?_toJson c.value
  rw [Rule.toJson, ruleOfJson?_of_head h room (fields?_leaf "date" c label (by decide))
    (Json.Fields.lookup_toList_of_ne label (by decide))]
  simp (disch := decide) only [Json.Fields.optional_toList_of_ne label,
    Json.Fields.orElse_toList_of_ne label, values, Option.bind_eq_bind, Option.bind_some]

theorem ruleOfJson?_flag (room : Nat) {c : Condition (Option Bool)} (h : c.IsCanonical) :
    ruleOfJson? (room + 2) (Rule.flag c).toJson = some (.flag c) := by
  have label := Json.Fields.label_of_member "bool" Json.boolean c.value
  have inverse (x : Bool) : Json.boolean? (Json.boolean x) = some x := rfl
  have value := Json.Fields.optional_member "bool" inverse (FieldType.toJson_ne_null .flag) c.value
  rw [Rule.toJson, ruleOfJson?_of_head h room (fields?_leaf "boolean" c label (by decide))
    (Json.Fields.lookup_toList_of_ne label (by decide))]
  simp (disch := decide) only [Json.Fields.optional_toList_of_ne label,
    Json.Fields.orElse_toList_of_ne label, value, Option.bind_eq_bind, Option.bind_some]

theorem ruleOfJson?_mediaKind (room : Nat) {c : Condition (Option MediaKind)} (h : c.IsCanonical) :
    ruleOfJson? (room + 2) (Rule.mediaKind c).toJson = some (.mediaKind c) := by
  have label := Json.Fields.label_of_member "media_kind" MediaKind.toJson c.value
  have value := Json.Fields.optional_member "media_kind" FieldType.ofJson?_mediaKind
    (FieldType.toJson_ne_null .mediaKind) c.value
  rw [Rule.toJson, ruleOfJson?_of_head h room (fields?_leaf "mediakind" c label (by decide))
    (Json.Fields.lookup_toList_of_ne label (by decide))]
  simp (disch := decide) only [Json.Fields.optional_toList_of_ne label,
    Json.Fields.orElse_toList_of_ne label, value, Option.bind_eq_bind, Option.bind_some]

theorem ruleOfJson?_playlist (room : Nat) {c : Condition (Option PersistentId)}
    (h : c.IsCanonical) : ruleOfJson? (room + 2) (Rule.playlist c).toJson = some (.playlist c) := by
  have label := Json.Fields.label_of_member "playlist" PersistentId.toJson c.value
  have value := Json.Fields.optional_member "playlist" PersistentId.ofJson?_toJson
    (FieldType.toJson_ne_null .id) c.value
  rw [Rule.toJson, ruleOfJson?_of_head h room (fields?_leaf "playlist" c label (by decide))
    (Json.Fields.lookup_toList_of_ne label (by decide))]
  simp (disch := decide) only [Json.Fields.optional_toList_of_ne label,
    Json.Fields.orElse_toList_of_ne label, value, Option.bind_eq_bind, Option.bind_some]

theorem ruleOfJson?_unknown (room : Nat) {c : Condition Unit} (h : c.IsCanonical) :
    ruleOfJson? (room + 2) (Rule.unknown c).toJson = some (.unknown c) := by
  have shape : (Rule.unknown c).toJson.fields? ruleLabels =
      some (c.headFields "unknown" ++ []) := rfl
  rw [ruleOfJson?_of_head h room shape rfl]
  rfl

/-! Rule sets. -/

/-- A rule set is read from its two members, if its rules are. -/
theorem ruleSetOfJson?_toJson {room : Nat} {set : RuleSet}
    (each : ∀ rule ∈ set.rules, ruleOfJson? room rule.toJson = some rule) :
    ruleSetOfJson? (room + 2) set.toJson = some set := by
  have rules : Json.list? (ruleOfJson? room) (.array (set.rules.map Rule.toJson)) =
      some set.rules := Json.list?_map_of_mem each
  have fields : set.toJson.fields? ["conjunction", "rules"] =
      some [("conjunction", set.conjunction.toJson),
        ("rules", .array (set.rules.map Rule.toJson))] := rfl
  rw [ruleSetOfJson?, fields]
  simp [rules]

theorem Rule.toJson_group (conjunction : Conjunction) (rules : List Rule) :
    (Rule.group conjunction rules).toJson =
      .object [("type", .text "ruleset"), ("ruleset", (RuleSet.mk conjunction rules).toJson),
        ("sign", Sign.pos.toJson), ("op", Operator.is.toJson)] := by
  rw [Rule.toJson, Rule.listToJson_eq]
  rfl

theorem ruleOfJson?_group {room : Nat} {conjunction : Conjunction} {rules : List Rule}
    (set : ruleSetOfJson? room (RuleSet.mk conjunction rules).toJson = some ⟨conjunction, rules⟩) :
    ruleOfJson? (room + 1) (Rule.group conjunction rules).toJson =
      some (.group conjunction rules) := by
  have fields : (Rule.group conjunction rules).toJson.fields? ruleLabels =
      some [("type", .text "ruleset"), ("ruleset", (RuleSet.mk conjunction rules).toJson),
        ("sign", Sign.pos.toJson), ("op", Operator.is.toJson)] := by
    rw [Rule.toJson_group]
    rfl
  have held : (RuleSet.mk conjunction rules).toJson ≠ .null := nofun
  have sign : Sign.ofJson? Sign.pos.toJson = some .pos := by decide +kernel
  have operator : Operator.ofJson? Operator.is.toJson = some .is := by decide +kernel
  rw [ruleOfJson?, fields, Option.bind_eq_bind, Option.bind_some]
  simp [Json.text?, held, set, sign, operator]

/-- A rule is read if there is room for the rule sets in it, each of which opens three brackets. -/
theorem ruleOfJson?_toJson {rule : Rule} (h : rule.IsCanonical) {room : Nat}
    (fits : 3 * rule.height ≤ room) : ruleOfJson? (room + 2) rule.toJson = some rule := by
  induction rule using Rule.induct generalizing room with
  | group conjunction rules ih =>
    cases h with
    | group all =>
      rw [Rule.height] at fits
      obtain ⟨room, rfl⟩ := Nat.exists_eq_add_of_le' (show 3 ≤ room by omega)
      apply ruleOfJson?_group
      apply ruleSetOfJson?_toJson
      intro rule mem
      have height : rule.height ≤ heightOfRules rules := height_le_of_mem mem
      exact ih rule mem (all rule mem) (by omega)
  | text c => cases h with | text head => exact ruleOfJson?_text room head
  | integer c => cases h with | integer head => exact ruleOfJson?_integer room head
  | flag c => cases h with | flag head => exact ruleOfJson?_flag room head
  | date c => cases h with | date head => exact ruleOfJson?_date room head
  | mediaKind c => cases h with | mediaKind head => exact ruleOfJson?_mediaKind room head
  | playlist c => cases h with | playlist head => exact ruleOfJson?_playlist room head
  | unknown c => cases h with | unknown head => exact ruleOfJson?_unknown room head

/-! Limits. -/

theorem label_of_flagMember (name : String) (flag : Bool) :
    ∀ m ∈ flagMember name flag, m.1 = name := by
  cases flag with
  | false => nofun
  | true =>
    rintro m ⟨⟩
    rfl

theorem Limit.fields?_toJson (limit : Limit) :
    limit.toJson.fields? ["items", "size", "time", "field", "desc"] =
      some ([Json.member "items" (fun n : UInt64 => .ofNat n.toNat) limit.maxItems,
        Json.member "size" (fun n : UInt64 => .ofNat n.toNat) limit.maxSize,
        Json.member "time" (fun n : UInt64 => .ofNat n.toNat) limit.maxTime,
        some ("field", limit.field.toJson), flagMember "desc" limit.descending].filterMap id) := by
  apply Json.fields?_ofMembers _ (List.Subset.refl _) (by decide)
  have named : ∀ m ∈ some ("field", limit.field.toJson), m.1 = "field" := by
    rintro m ⟨⟩
    rfl
  exact .cons (Json.Fields.label_of_member _ _ _) (.cons (Json.Fields.label_of_member _ _ _)
    (.cons (Json.Fields.label_of_member _ _ _)
      (.cons named (.cons (label_of_flagMember _ _) .nil))))

theorem Limit.ofJson?_toJson {limit : Limit}
    (canonical : Canonical LimitField.named LimitField.code LimitField.other limit.field) :
    ofJson? limit.toJson = some limit := by
  have named : LimitField.ofJson? limit.field.toJson = some limit.field :=
    LimitField.ofLabel?_label canonical
  have held (n : UInt64) : Json.ofNat n.toNat ≠ .null := nofun
  rw [ofJson?, fields?_toJson, Option.bind_eq_bind, Option.bind_some]
  obtain ⟨cap, field, descending⟩ := limit
  cases cap <;> cases descending <;>
    simp [maxItems, maxSize, maxTime, flagMember, Json.member, Json.boolean?, held, named]

/-! Whole smart playlists. -/

/-- Codes that have names stand under their names, at every depth. -/
structure IsCanonical (smart : Smart) : Prop where
  rules : ∀ rule ∈ smart.ruleset.rules, rule.IsCanonical
  limit : ∀ limit ∈ smart.limit,
    Canonical LimitField.named LimitField.code LimitField.other limit.field

theorem fields?_toJson (smart : Smart) :
    smart.toJson.fields? ["ruleset", "limit", "live_updating", "checked_only"] =
      some ([some ("ruleset", smart.ruleset.toJson),
        Json.member "limit" Limit.toJson smart.limit,
        flagMember "live_updating" smart.liveUpdating,
        flagMember "checked_only" smart.checkedOnly].filterMap id) := by
  apply Json.fields?_ofMembers _ (List.Subset.refl _) (by decide)
  have named : ∀ m ∈ some ("ruleset", smart.ruleset.toJson), m.1 = "ruleset" := by
    rintro m ⟨⟩
    rfl
  exact .cons named (.cons (Json.Fields.label_of_member _ _ _)
    (.cons (label_of_flagMember _ _) (.cons (label_of_flagMember _ _) .nil)))

theorem ofJson?_toJson {smart : Smart} (canonical : smart.IsCanonical)
    (nested : smart.ruleset.height ≤ 41) : Smart.ofJson? smart.toJson = some smart := by
  have ruleset : ruleSetOfJson? (maxNesting - 1) smart.ruleset.toJson = some smart.ruleset := by
    apply ruleSetOfJson?_toJson
    intro rule mem
    rw [RuleSet.height] at nested
    have height : rule.height ≤ heightOfRules smart.ruleset.rules := height_le_of_mem mem
    exact ruleOfJson?_toJson (canonical.rules rule mem) (by omega)
  have limit (limit : Limit) (held : smart.limit = some limit) :
      Limit.ofJson? limit.toJson = some limit :=
    Limit.ofJson?_toJson (canonical.limit limit held)
  have ne_null (limit : Limit) : limit.toJson ≠ .null := nofun
  rw [Smart.ofJson?, fields?_toJson, Option.bind_eq_bind, Option.bind_some]
  obtain ⟨set, limit?, live, checked⟩ := smart
  cases limit? <;> cases live <;> cases checked <;>
    simp [flagMember, Json.member, Json.boolean?, ne_null, ruleset, limit]

end MusicLibrary.Smart
