import MusicLibrary.Query.Like
import MusicLibrary.Query.Value
import MusicLibrary.Smart.Vocabulary

/-! Conditions on tracks and the playlists that they are joined with: how they are written in SQL,
and what they mean. A condition on a column without a value is neither true nor false. -/

namespace MusicLibrary.Query

inductive Comparison where
  | equal | notEqual | less | lessOrEqual | greater | greaterOrEqual
  deriving DecidableEq

namespace Comparison

def symbol : Comparison → String
  | .equal => "="
  | .notEqual => "!="
  | .less => "<"
  | .lessOrEqual => "<="
  | .greater => ">"
  | .greaterOrEqual => ">="

def holds : Comparison → Ordering → Bool
  | .equal, o => o == .eq
  | .notEqual, o => o != .eq
  | .less, o => o == .lt
  | .lessOrEqual, o => o != .gt
  | .greater, o => o == .gt
  | .greaterOrEqual, o => o != .lt

def negation : Comparison → Comparison
  | .equal => .notEqual
  | .notEqual => .equal
  | .less => .greaterOrEqual
  | .lessOrEqual => .greater
  | .greater => .lessOrEqual
  | .greaterOrEqual => .less

@[simp] theorem holds_negation (c : Comparison) (o : Ordering) :
    c.negation.holds o = !c.holds o := by
  cases c <;> cases o <;> rfl

end Comparison

/-- A condition. Joins are counted from zero. -/
inductive Predicate where
  | never
  | always
  | isNull (column : Track.Column) (negated : Bool)
  | compare (column : Track.Column) (comparison : Comparison) (value : Value)
  | like (column : Track.Column) (pattern : String) (negated : Bool)
  | sharesFlag (kind : MediaKind) (negated : Bool)
  | joined (join : Nat) (found : Bool)
  | group (conjunction : Smart.Conjunction) (parts : List Predicate)

/-- A piece of SQL: words, or a placeholder together with the value that is bound to it. -/
inductive Fragment where
  | words (s : String)
  | bound (value : Value)
  deriving DecidableEq

namespace Fragment

def text : Fragment → String
  | .words s => s
  | .bound _ => "?"

def value? : Fragment → Option Value
  | .words _ => none
  | .bound value => some value

def sql (fragments : List Fragment) : String := String.join (fragments.map text)

def values (fragments : List Fragment) : List Value := fragments.filterMap value?

@[simp] theorem values_append (a b : List Fragment) : values (a ++ b) = values a ++ values b := by
  simp [values]

end Fragment

/-- The letters of a positive number when "a" stands for one, "z" for 26 and "aa" for 27. -/
def letters (n : Nat) : List Char :=
  if n = 0 then [] else letters ((n - 1) / 26) ++ [Char.ofNat (97 + (n - 1) % 26)]
termination_by n
decreasing_by omega

def joinAlias (join : Nat) : String := "pt" ++ String.ofList (letters (join + 1))

def columnName (column : Track.Column) : String := "track." ++ column.label

def nullTest (negated : Bool) : String := if negated then " IS NOT NULL" else " IS NULL"

namespace Predicate

mutual

def fragments : Predicate → List Fragment
  | .never => [.words "0 = 1"]
  | .always => [.words "1 = 1"]
  | .isNull column negated => [.words (columnName column ++ nullTest negated)]
  | .compare column comparison value =>
    [.words (columnName column ++ " " ++ comparison.symbol ++ " "), .bound value]
  | .like column pattern negated =>
    [.words (columnName column ++ if negated then " NOT LIKE " else " LIKE "),
      .bound (.text pattern)]
  | .sharesFlag kind negated =>
    [.words ("(" ++ columnName .mediaKind ++ " & "), .bound (Value.ofField .mediaKind kind),
      .words (if negated then ") = 0" else ") != 0")]
  | .joined join found => [.words (joinAlias join ++ ".playlist_id" ++ nullTest found)]
  | .group conjunction parts =>
    .words "(" :: joinFragments (" " ++ conjunction.word ++ " ") parts ++ [.words ")"]
termination_by structural p => p

def joinFragments (separator : String) : List Predicate → List Fragment
  | [] => []
  | p :: rest => p.fragments ++ furtherFragments separator rest
termination_by structural parts => parts

def furtherFragments (separator : String) : List Predicate → List Fragment
  | [] => []
  | p :: rest => .words separator :: p.fragments ++ furtherFragments separator rest
termination_by structural parts => parts

end

mutual

/-- How deep the expression tree of a condition is. Of the parts of a group, each one lies one
level deeper than the next. -/
def height : Predicate → Nat
  | .never | .always => 2
  | .isNull .. | .compare .. => 3
  | .like _ _ negated => if negated then 4 else 3
  | .sharesFlag .. => 4
  | .joined .. => 3
  | .group _ parts => heightOfParts 0 parts
termination_by structural p => p

def heightOfParts (first : Nat) : List Predicate → Nat
  | [] => first
  | p :: rest => heightOfParts (if first = 0 then p.height else 1 + max first p.height) rest
termination_by structural parts => parts

end

/-- A track with the playlists that the joins found for it. -/
structure Row where
  track : Track
  found : List (Option Key)

def both : Option Bool → Option Bool → Option Bool
  | some false, _ | _, some false => some false
  | some true, some true => some true
  | _, _ => none

def either : Option Bool → Option Bool → Option Bool
  | some true, _ | _, some true => some true
  | some false, some false => some false
  | _, _ => none

def conjoin : Smart.Conjunction → Option Bool → Option Bool → Option Bool
  | .and => both
  | .or => either

/-- The truth value of an empty group, which leaves the others as they are. -/
def neutral : Smart.Conjunction → Bool
  | .and => true
  | .or => false

mutual

/-- Whether the condition holds of a row; unknown if it depends on a value that is missing. -/
def truth (row : Row) : Predicate → Option Bool
  | .never => some false
  | .always => some true
  | .isNull column negated => some ((cell row.track column).isNone != negated)
  | .compare column comparison value =>
    (cell row.track column).map fun held => comparison.holds (held.order value)
  | .like column pattern negated =>
    (cell row.track column).map fun held => Query.like pattern held.toText != negated
  | .sharesFlag kind negated => row.track.mediaKind.map fun held => held.intersects kind != negated
  | .joined join found => some ((row.found[join]?.join).isSome == found)
  | .group conjunction parts => truthOfParts row conjunction parts
termination_by structural p => p

def truthOfParts (row : Row) (conjunction : Smart.Conjunction) : List Predicate → Option Bool
  | [] => some (neutral conjunction)
  | p :: rest => conjoin conjunction (truth row p) (truthOfParts row conjunction rest)
termination_by structural parts => parts

end

@[simp] theorem both_true (a : Option Bool) : both a (some true) = a := by
  rcases a with _ | _ | _ <;> rfl

@[simp] theorem either_false (a : Option Bool) : either a (some false) = a := by
  rcases a with _ | _ | _ <;> rfl

/-- A part alone is the group. -/
@[simp] theorem conjoin_neutral (c : Smart.Conjunction) (a : Option Bool) :
    conjoin c a (some (neutral c)) = a := by
  cases c <;> simp [conjoin, neutral]

end Predicate

end MusicLibrary.Query
