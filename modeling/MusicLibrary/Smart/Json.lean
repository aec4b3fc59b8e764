import MusicLibrary.Smart.Rule

/-! The JSON form of smart playlists. Every rule has the same flat shape: its kind, its head, and
the one field that holds its values. Reading opens a bounded count of nested arrays and objects. -/

namespace MusicLibrary.Smart

def maxNesting : Nat := 127

def listMember (name : String) (write : α → Json) (items : List α) : Option (String × Json) :=
  if items.isEmpty then none else some (name, .array (items.map write))

def flagMember (name : String) (flag : Bool) : Option (String × Json) :=
  if flag then some (name, .boolean true) else none

def Condition.head (kind : String) (c : Condition V) : List (Option (String × Json)) :=
  [some ("type", .text kind), some ("field", c.field.toJson), some ("sign", c.sign.toJson),
   some ("op", c.operator.toJson)]

mutual

def Rule.toJson : Rule → Json
  | .group conjunction rules =>
    .object [("type", .text "ruleset"),
      ("ruleset",
        .object [("conjunction", conjunction.toJson), ("rules", .array (listToJson rules))]),
      ("sign", Sign.pos.toJson), ("op", Operator.is.toJson)]
  | .text c => .ofMembers (c.head "string" ++ [listMember "strings" Json.text c.value])
  | .integer c => .ofMembers (c.head "int" ++ [listMember "ints" Json.ofInt64 c.value])
  | .flag c => .ofMembers (c.head "boolean" ++ [Json.member "bool" Json.boolean c.value])
  | .date c => .ofMembers (c.head "date" ++ [listMember "times" Timestamp.toJson c.value])
  | .mediaKind c =>
    .ofMembers (c.head "mediakind" ++ [Json.member "media_kind" MediaKind.toJson c.value])
  | .playlist c =>
    .ofMembers (c.head "playlist" ++ [Json.member "playlist" PersistentId.toJson c.value])
  | .unknown c => .ofMembers (c.head "unknown")
termination_by structural rule => rule

def Rule.listToJson : List Rule → List Json
  | [] => []
  | r :: rest => r.toJson :: listToJson rest
termination_by structural rules => rules

end

theorem Rule.listToJson_eq (rules : List Rule) : Rule.listToJson rules = rules.map Rule.toJson := by
  induction rules with
  | nil => rfl
  | cons r rest ih => simp [Rule.listToJson, ih]

def RuleSet.toJson (set : RuleSet) : Json :=
  .object [("conjunction", set.conjunction.toJson), ("rules", .array (set.rules.map Rule.toJson))]

def ruleLabels : List String :=
  ["type", "ruleset", "field", "sign", "op", "strings", "ints", "times", "bool", "media_kind",
   "playlist"]

mutual

/-- Reads a rule, opening at most the given count of nested arrays and objects. All fields have to
be of their types, also those that the kind of the rule does not use. -/
def ruleOfJson? : Nat → Json → Option Rule
  | 0, _ => none
  | room + 1, j => do
    let list := fun {α : Type} (read : Json → Option α) (j : Json) =>
      if room = 0 then none else Json.list? read j
    let fields ← j.fields? ruleLabels
    let kind ← fields.required "type" Json.text?
    let ruleset ← fields.optional "ruleset" (ruleSetOfJson? room)
    let field ← fields.optional "field" Field.ofJson?
    let sign ← fields.orElse "sign" Sign.ofJson? .pos
    let operator ← fields.orElse "op" Operator.ofJson? .is
    let strings ← fields.orElse "strings" (list Json.text?) []
    let ints ← fields.orElse "ints" (list Json.int64?) []
    let times ← fields.orElse "times" (list Timestamp.ofJson?) []
    let bool ← fields.optional "bool" Json.boolean?
    let mediaKind ← fields.optional "media_kind" MediaKind.ofJson?
    let playlist ← fields.optional "playlist" PersistentId.ofJson?
    let condition := fun {V : Type} (default : Field) (value : V) =>
      (⟨field.getD default, sign, operator, value⟩ : Condition V)
    match kind with
    | "ruleset" =>
      let set := ruleset.getD ⟨.and, []⟩
      return .group set.conjunction set.rules
    | "string" => return .text (condition .name strings)
    | "int" => return .integer (condition .rating ints)
    | "boolean" => return .flag (condition .compilation bool)
    | "date" => return .date (condition .dateAdded times)
    | "mediakind" => return .mediaKind (condition .mediaKind mediaKind)
    | "playlist" => return .playlist (condition .playlistPersistentId playlist)
    | "unknown" => return .unknown (condition (.other 0) ())
    | _ => none
termination_by structural room => room

/-- Reads a rule set, opening at most the given count of nested arrays and objects. -/
def ruleSetOfJson? : Nat → Json → Option RuleSet
  | room + 2, j => do
    let fields ← j.fields? ["conjunction", "rules"]
    let conjunction ← fields.required "conjunction" Conjunction.ofJson?
    let rules ← fields.required "rules" (Json.list? (ruleOfJson? room))
    return ⟨conjunction, rules⟩
  | _, _ => none
termination_by structural room => room

end

def Rule.ofJson? (j : Json) : Option Rule := ruleOfJson? maxNesting j

def RuleSet.ofJson? (j : Json) : Option RuleSet := ruleSetOfJson? maxNesting j

/-- A limit in JSON: the field of its cap, the ordering, and its direction when descending. -/
def Limit.toJson (limit : Limit) : Json :=
  let number := fun (n : UInt64) => Json.ofNat n.toNat
  .ofMembers [Json.member "items" number limit.maxItems, Json.member "size" number limit.maxSize,
    Json.member "time" number limit.maxTime, some ("field", limit.field.toJson),
    flagMember "desc" limit.descending]

def Limit.ofJson? (j : Json) : Option Limit := do
  let fields ← j.fields? ["items", "size", "time", "field", "desc"]
  let items ← fields.optional "items" Json.uint64?
  let size ← fields.optional "size" Json.uint64?
  let time ← fields.optional "time" Json.uint64?
  let field ← fields.required "field" LimitField.ofJson?
  let descending ← fields.orElse "desc" Json.boolean? false
  match items, size, time with
  | some n, none, none => return ⟨.items n, field, descending⟩
  | none, some n, none => return ⟨.size n, field, descending⟩
  | none, none, some n => return ⟨.time n, field, descending⟩
  | _, _, _ => none

end MusicLibrary.Smart

namespace MusicLibrary

def Smart.toJson (smart : Smart) : Json :=
  .ofMembers [some ("ruleset", smart.ruleset.toJson),
    Json.member "limit" Smart.Limit.toJson smart.limit,
    Smart.flagMember "live_updating" smart.liveUpdating,
    Smart.flagMember "checked_only" smart.checkedOnly]

def Smart.ofJson? (j : Json) : Option Smart := do
  let fields ← j.fields? ["ruleset", "limit", "live_updating", "checked_only"]
  let ruleset ← fields.required "ruleset" (Smart.ruleSetOfJson? (Smart.maxNesting - 1))
  let limit ← fields.optional "limit" Smart.Limit.ofJson?
  let liveUpdating ← fields.orElse "live_updating" Json.boolean? false
  let checkedOnly ← fields.orElse "checked_only" Json.boolean? false
  return { ruleset, limit, liveUpdating, checkedOnly }

end MusicLibrary
