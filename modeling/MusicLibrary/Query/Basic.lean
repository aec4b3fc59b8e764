import MusicLibrary.Query.Predicate
import MusicLibrary.Smart.Rule

/-! The query of a smart playlist: a condition made from the tree of rules, a join for each rule
that tests a playlist, and the order and the caps of the limit. -/

namespace MusicLibrary

namespace Query

structure Context where
  now : Timestamp
  modulus : Int64

inductive Order where
  | column (column : Track.Column) (descending : Bool)
  | keyRemainder (modulus : Int64)
  | key
  deriving DecidableEq

def Order.sql : Order → String
  | .column c descending => columnName c ++ if descending then " DESC" else ""
  | .keyRemainder modulus => "track.id % " ++ toString modulus.toInt
  | .key => "track.id"

end Query

structure Query where
  condition : Query.Predicate
  /-- The playlist of each join, or none for a join with any playlist. -/
  joins : List (Option Key)
  order : Option Query.Order := none
  limit : Option UInt64 := none
  maxSize : Option UInt64 := none
  maxTime : Option UInt64 := none
  warnings : List String

namespace Query

def distinct (query : Query) : Bool := !query.joins.isEmpty

def joinFragments (join : Nat) (playlist : Option Key) : List Fragment :=
  let name := joinAlias join
  .words ("LEFT OUTER JOIN playlist_track " ++ name ++ " ON track.id = " ++ name ++ ".track_id") ::
    match playlist with
    | some id => [.words (" AND " ++ name ++ ".playlist_id = "), .bound (.integer id)]
    | none => []

def joinsFragments (first : Nat) : List (Option Key) → List Fragment
  | [] => []
  | playlist :: rest =>
    .words " " :: joinFragments first playlist ++ joinsFragments (first + 1) rest

/-- The whole query in SQL. Only tracks with a file are selected. -/
def fragments (query : Query) : List Fragment :=
  .words (if query.distinct then "SELECT DISTINCT track.* FROM track"
      else "SELECT track.* FROM track") ::
    joinsFragments 0 query.joins ++
    .words " WHERE track.location IS NOT NULL AND " :: query.condition.fragments ++
    [.words ((query.order.map fun order => " ORDER BY " ++ order.sql).getD ""),
      .words ((query.limit.map fun limit => " LIMIT " ++ toString limit.toNat).getD "")]

def sql (query : Query) : String := Fragment.sql query.fragments

def parameters (query : Query) : List Value := Fragment.values query.fragments

/-! Rules. -/

open Smart

/-- The values of a comparison: the first one, and the two ends of a range in order. -/
structure Operands where
  first : Value
  low : Value
  high : Value

/-- The operands of a list of values; a missing one takes the default. -/
def Operands.ofList (wrap : α → Value) (before : α → α → Bool) (default : α) (values : List α) :
    Operands :=
  let first := values.headD default
  let second := values.getD 1 default
  if before second first then ⟨wrap first, wrap second, wrap first⟩
  else ⟨wrap first, wrap first, wrap second⟩

def compareOperands (column : Track.Column) (operator : Operator) (negated : Bool)
    (operands : Operands) : Predicate :=
  let test := fun (c : Comparison) (value : Value) =>
    Predicate.compare column (if negated then c.negation else c) value
  match operator with
  | .greaterThan => test .greater operands.first
  | .lessThan => test .less operands.first
  | .between =>
    .group (if negated then .or else .and)
      [test .greaterOrEqual operands.low, test .lessOrEqual operands.high]
  | _ => test .equal operands.first

/-- A rule on a text. Without a text it asks whether the column is empty. -/
def textPredicate (column : Track.Column) (c : Condition (List String)) : Predicate :=
  let negated := c.sign.isNegated
  match c.value with
  | [] =>
    let test : Comparison := if negated then .notEqual else .equal
    .group (if negated then .and else .or) [.isNull column negated, .compare column test (.text "")]
  | first :: _ =>
    match c.operator with
    | .contains => .like column ("%" ++ first ++ "%") negated
    | .startsWith => .like column (first ++ "%") negated
    | .endsWith => .like column ("%" ++ first) negated
    | operator =>
      compareOperands column operator negated
        (.ofList .text (fun a b => decide (a < b)) "" c.value)

/-- A rule on numbers. Without a number it asks whether the column is empty. -/
def integerPredicate (column : Track.Column) (c : Condition (List Int64)) : Predicate :=
  let negated := c.sign.isNegated
  if c.value.isEmpty then .isNull column negated
  else compareOperands column c.operator negated
    (.ofList .integer (fun a b => decide (a < b)) 0 c.value)

/-- A rule on times. The comparison "within" means not before now plus the offset. -/
def datePredicate (now : Timestamp) (column : Track.Column) (c : Condition (List Timestamp)) :
    Predicate :=
  match c.value, c.operator with
  | first :: _, .within =>
    .compare column (if c.sign.isNegated then .less else .greaterOrEqual)
      (.integer (now.addMillis first.ms).ms)
  | times, operator =>
    integerPredicate column ⟨c.field, c.sign, operator, times.map (·.ms)⟩

def flagPredicate (column : Track.Column) (c : Condition (Option Bool)) : Predicate :=
  match c.value with
  | none => .isNull column c.sign.isNegated
  | some flag =>
    .compare column (if c.sign.isNegated then .notEqual else .equal) (Value.ofField .flag flag)

def mediaKindPredicate (c : Condition (Option MediaKind)) : Predicate :=
  let negated := c.sign.isNegated
  match c.value with
  | none => .isNull .mediaKind negated
  | some kind =>
    if c.operator = .bitwise then .sharesFlag kind negated
    else .compare .mediaKind (if negated then .notEqual else .equal)
      (Value.ofField .mediaKind kind)

/-- A rule on a playlist, by the join that it has. A join with a given playlist finds the members
of it; without one it finds members of any playlist, and the rule asks for tracks in none. -/
def playlistPredicate (join : Nat) (c : Condition (Option PersistentId)) : Predicate :=
  .joined join (c.value.isSome != c.sign.isNegated)

/-- A rule on the column of an attribute. No track satisfies a rule without a column. -/
def onColumn (field : Smart.Field) (predicate : Track.Column → Predicate) : Predicate :=
  match field.column? with
  | some column => predicate column
  | none => .never

def missingColumn (field : Smart.Field) : List String :=
  match field.column? with
  | some _ => []
  | none => ["field " ++ field.label ++ " has no column; rule never matches"]

def groupPredicate (conjunction : Conjunction) (parts : List Predicate) : Predicate :=
  if parts.isEmpty then .group .and [.always] else .group conjunction parts

mutual

/-- The joins that a rule needs, in the order of the tree. -/
def joinsOfRule : Rule → List (Option Key)
  | .group _ rules => joinsOfRules rules
  | .playlist c => [c.value.map PersistentId.key]
  | _ => []
termination_by structural rule => rule

def joinsOfRules : List Rule → List (Option Key)
  | [] => []
  | rule :: rest => joinsOfRule rule ++ joinsOfRules rest
termination_by structural rules => rules

end

mutual

def warningsOfRule : Rule → List String
  | .group _ rules => warningsOfRules rules
  | .text c => missingColumn c.field
  | .integer c => missingColumn c.field
  | .flag c => missingColumn c.field
  | .date c => missingColumn c.field
  | _ => []
termination_by structural rule => rule

def warningsOfRules : List Rule → List String
  | [] => []
  | rule :: rest => warningsOfRule rule ++ warningsOfRules rest
termination_by structural rules => rules

end

mutual

def ofRule (now : Timestamp) (join : Nat) : Rule → Predicate
  | .group conjunction rules => groupPredicate conjunction (ofRules now join rules)
  | .text c => onColumn c.field fun column => textPredicate column c
  | .integer c => onColumn c.field fun column => integerPredicate column c
  | .flag c => onColumn c.field fun column => flagPredicate column c
  | .date c => onColumn c.field fun column => datePredicate now column c
  | .mediaKind c => mediaKindPredicate c
  | .playlist c => playlistPredicate join c
  | .unknown _ => .always
termination_by structural rule => rule

def ofRules (now : Timestamp) (join : Nat) : List Rule → List Predicate
  | [] => []
  | rule :: rest => ofRule now join rule :: ofRules now (join + (joinsOfRule rule).length) rest
termination_by structural rules => rules

end

def ofRuleSet (set : RuleSet) (context : Context) : Query where
  condition := groupPredicate set.conjunction (ofRules context.now 0 set.rules)
  joins := joinsOfRules set.rules
  warnings := warningsOfRules set.rules

/-- The order of a limit. The lowest rating is the rating in reverse; random order and orders that
are not known have no direction. -/
def Order.ofLimit (limit : Limit) (modulus : Int64) : Order :=
  let sorted := fun (c : Track.Column) => Order.column c limit.descending
  match limit.field with
  | .lowestRating => .column .rating (!limit.descending)
  | .name => sorted .sortName
  | .album => sorted .sortAlbum
  | .artist => sorted .sortArtist
  | .genre => sorted .sortGenre
  | .dateAdded => sorted .dateAdded
  | .playCount => sorted .playCount
  | .playDate => sorted .playDate
  | .rating => sorted .rating
  | .random => .keyRemainder modulus
  | .other _ => .key

def ofSmart (smart : Smart) (context : Context) : Query :=
  let query := ofRuleSet smart.ruleset context
  match smart.limit with
  | none => query
  | some limit =>
    { query with
      order := some (.ofLimit limit context.modulus)
      limit := limit.maxItems
      maxSize := limit.maxSize
      maxTime := limit.maxTime }

end Query

end MusicLibrary
