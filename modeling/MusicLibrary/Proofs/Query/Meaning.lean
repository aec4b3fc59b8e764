import MusicLibrary.Query.Evaluate
import MusicLibrary.Smart.CriteriaRecord

/-! What a tree of rules means, read off the tree itself: each leaf asks about one value of a track
or about its playlists, a value that is missing makes the answer unknown, and the answers are
combined as Kleene's logic does it. No query is made. -/

namespace MusicLibrary

/-- The value of a column, if the column holds values of the type. -/
def Track.read (type : FieldType) (track : Track) (column : Track.Column) : Option type.Value :=
  if h : column.type = type then cast (congrArg (Option ·.Value) h) (track.get column) else none

/-- Whether the library has a track in a playlist, or in any playlist if none is given. -/
def Library.lists (library : Library) (track : Track) (playlist : Option PersistentId) : Bool :=
  library.memberships.any fun m =>
    m.track == track.id.key && playlist.all fun id => m.playlist == id.key

namespace Smart

/-! Truth values. -/

/-- A conjunction is false if one of its parts is, and else unknown if one of them is. -/
def allHold (parts : List (Option Bool)) : Option Bool :=
  if some false ∈ parts then some false else if none ∈ parts then none else some true

/-- A disjunction is true if one of its parts is, and else unknown if one of them is. -/
def anyHolds (parts : List (Option Bool)) : Option Bool :=
  if some true ∈ parts then some true else if none ∈ parts then none else some false

/-- A group without rules is true under either conjunction. -/
def Conjunction.combine : Conjunction → List (Option Bool) → Option Bool
  | _, [] => some true
  | .and, parts => allHold parts
  | .or, parts => anyHolds parts

/-- The answer to a question that a rule may ask in the negative. -/
def Sign.answer (sign : Sign) (holds : Bool) : Bool := holds != sign.isNegated

/-! Leaves. -/

/-- Whether a value stands to the values of a rule as its comparison says. A range includes both
its ends, which stand in either order; all comparisons but those of order are equality. -/
def Operator.compares {α : Type} [LT α] [LE α] [DecidableLT α] [DecidableLE α] [DecidableEq α]
    (operator : Operator) (default : α) (values : List α) (held : α) : Bool :=
  let first := values.headD default
  let second := values.getD 1 default
  match operator with
  | .greaterThan => first < held
  | .lessThan => held < first
  | .between => (first ≤ held && held ≤ second) || (second ≤ held && held ≤ first)
  | _ => held = first

/-- Whether a pattern matches a text. A percent sign stands for any characters and an underscore
for one, also where a rule brings them; ASCII letters match in either case. -/
def fitsPattern (pattern text : String) : Bool :=
  Query.likeChars (Query.legibleChars pattern) (Query.legibleChars text)

/-- A rule without a text asks whether the track has none, or an empty one. -/
def Condition.askText (c : Condition (List String)) (held : Option String) : Option Bool :=
  match c.value with
  | [] => some (c.sign.answer (held.getD "" = ""))
  | first :: _ => held.map fun text => c.sign.answer
      (match c.operator with
        | .contains => fitsPattern ("%" ++ first ++ "%") text
        | .startsWith => fitsPattern (first ++ "%") text
        | .endsWith => fitsPattern ("%" ++ first) text
        | operator => operator.compares "" c.value text)

/-- Every other rule without a value asks whether the track has none. -/
def Condition.askMissing (c : Condition V) (held : Option W) : Option Bool :=
  some (c.sign.answer held.isNone)

def Condition.askInteger (c : Condition (List Int64)) (held : Option Int64) : Option Bool :=
  if c.value.isEmpty then c.askMissing held
  else held.map fun n => c.sign.answer (c.operator.compares 0 (c.value.map (·.toInt)) n.toInt)

/-- The comparison "within" asks whether a time is not before now plus the offset. -/
def Condition.askDate (now : Timestamp) (c : Condition (List Timestamp))
    (held : Option Timestamp) : Option Bool :=
  match c.value with
  | [] => c.askMissing held
  | first :: _ => held.map fun t => c.sign.answer
      (match c.operator with
        | .within => (now.addMillis first.ms).ms ≤ t.ms
        | operator => operator.compares 0 (c.value.map (·.ms.toInt)) t.ms.toInt)

def Condition.askFlag (c : Condition (Option Bool)) (held : Option Bool) : Option Bool :=
  match c.value with
  | none => c.askMissing held
  | some flag => held.map fun b => c.sign.answer (b == flag)

def Condition.askMediaKind (c : Condition (Option MediaKind)) (held : Option MediaKind) :
    Option Bool :=
  match c.value with
  | none => c.askMissing held
  | some kind => held.map fun k => c.sign.answer
      (match c.operator with
        | .bitwise => k.intersects kind
        | _ => k == kind)

/-- Without a playlist the rule asks whether the track is in none at all. -/
def Condition.askPlaylist (library : Library) (track : Track)
    (c : Condition (Option PersistentId)) : Bool :=
  c.sign.answer (library.lists track c.value == c.value.isSome)

/-- A rule on the column of its attribute; it is false if there is no column. -/
def Condition.onColumn (c : Condition V) (ask : Track.Column → Option Bool) : Option Bool :=
  match c.field.column? with
  | some column => ask column
  | none => some false

/-! Trees. -/

mutual

/-- Whether a rule holds of a track: true, false, or unknown. -/
def Rule.truth (library : Library) (now : Timestamp) (track : Track) : Rule → Option Bool
  | .group conjunction rules => conjunction.combine (Rule.truths library now track rules)
  | .text c => c.onColumn fun column => c.askText (track.read .text column)
  | .integer c => c.onColumn fun column => c.askInteger (track.read .integer column)
  | .flag c => c.onColumn fun column => c.askFlag (track.read .flag column)
  | .date c => c.onColumn fun column => c.askDate now (track.read .time column)
  | .mediaKind c => c.askMediaKind track.mediaKind
  | .playlist c => some (c.askPlaylist library track)
  | .unknown _ => some true
termination_by structural rule => rule

def Rule.truths (library : Library) (now : Timestamp) (track : Track) :
    List Rule → List (Option Bool)
  | [] => []
  | rule :: rest => rule.truth library now track :: Rule.truths library now track rest
termination_by structural rules => rules

end

theorem Rule.truths_eq (library : Library) (now : Timestamp) (track : Track) (rules : List Rule) :
    Rule.truths library now track rules = rules.map (Rule.truth library now track) := by
  induction rules with
  | nil => rfl
  | cons rule rest ih => rw [Rule.truths, ih, List.map_cons]

def RuleSet.truth (library : Library) (now : Timestamp) (track : Track) (set : RuleSet) :
    Option Bool := set.conjunction.combine (set.rules.map (Rule.truth library now track))

mutual

/-- Every leaf has the kind of values that its attribute has; a rule that is not understood may be
about any attribute. -/
def Rule.isWellKinded : Rule → Bool
  | .group _ rules => Rule.areWellKinded rules
  | .text c => c.field.valueKind = .text
  | .integer c => c.field.valueKind = .integer
  | .flag c => c.field.valueKind = .flag || c.field.valueKind = .love
  | .date c => c.field.valueKind = .date
  | .mediaKind c => c.field.valueKind = .mediaKind
  | .playlist c => c.field.valueKind = .playlist
  | .unknown _ => true
termination_by structural rule => rule

def Rule.areWellKinded : List Rule → Bool
  | [] => true
  | rule :: rest => rule.isWellKinded && Rule.areWellKinded rest
termination_by structural rules => rules

end

theorem Rule.areWellKinded_eq (rules : List Rule) :
    Rule.areWellKinded rules = rules.all Rule.isWellKinded := by
  induction rules with
  | nil => rfl
  | cons rule rest ih => rw [Rule.areWellKinded, ih, List.all_cons]

def RuleSet.isWellKinded (set : RuleSet) : Bool := set.rules.all Rule.isWellKinded

/-- The kind of values of an attribute is that of its column. -/
theorem Field.type_of_column? {field : Field} {column : Track.Column}
    (h : field.column? = some column) :
    column.type = match field.valueKind with
      | .text => .text
      | .integer => .integer
      | .flag | .love => .flag
      | .date => .time
      | .mediaKind => .mediaKind
      | _ => column.type := by
  cases field <;> cases h <;> rfl

end Smart

end MusicLibrary
