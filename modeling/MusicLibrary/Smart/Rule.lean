import MusicLibrary.PersistentId
import MusicLibrary.Smart.Vocabulary

/-! Smart playlists: a tree of rules, and an optional limit on what the list may hold. Each kind of
rule carries values of its own type; a rule that is not understood keeps its head and matches
every track. -/

namespace MusicLibrary

namespace Smart

/-- The head of a rule, and the values that it compares with. -/
structure Condition (V : Type) where
  field : Field
  sign : Sign
  operator : Operator
  value : V
  deriving DecidableEq, Inhabited

inductive Rule where
  | group (conjunction : Conjunction) (rules : List Rule)
  | text (condition : Condition (List String))
  | integer (condition : Condition (List Int64))
  | flag (condition : Condition (Option Bool))
  /-- Points in time, or for the comparison "within" an offset from now. -/
  | date (condition : Condition (List Timestamp))
  | mediaKind (condition : Condition (Option MediaKind))
  | playlist (condition : Condition (Option PersistentId))
  | unknown (condition : Condition Unit)
  deriving Inhabited

structure RuleSet where
  conjunction : Conjunction
  rules : List Rule
  deriving Inhabited

/-- How much a limited playlist may hold: a count of tracks, bytes, or milliseconds. -/
inductive Cap where
  | items (count : UInt64)
  | size (bytes : UInt64)
  | time (ms : UInt64)
  deriving DecidableEq, Inhabited

/-- A limit, and the order in which tracks are kept. -/
structure Limit where
  cap : Cap
  field : LimitField
  descending : Bool
  deriving DecidableEq, Inhabited

/-- The count of tracks that a limit allows, if it counts tracks. -/
def Limit.maxItems (limit : Limit) : Option UInt64 :=
  match limit.cap with
  | .items count => some count
  | _ => none

def Limit.maxSize (limit : Limit) : Option UInt64 :=
  match limit.cap with
  | .size bytes => some bytes
  | _ => none

def Limit.maxTime (limit : Limit) : Option UInt64 :=
  match limit.cap with
  | .time ms => some ms
  | _ => none

namespace Rule

/-- What holds of every leaf, and of every group whose rules it holds of, holds of every rule. -/
theorem induct {P : Rule → Prop}
    (group : ∀ conjunction rules, (∀ rule ∈ rules, P rule) → P (.group conjunction rules))
    (text : ∀ c, P (.text c)) (integer : ∀ c, P (.integer c)) (flag : ∀ c, P (.flag c))
    (date : ∀ c, P (.date c)) (mediaKind : ∀ c, P (.mediaKind c))
    (playlist : ∀ c, P (.playlist c)) (unknown : ∀ c, P (.unknown c)) (rule : Rule) : P rule :=
  match rule with
  | .group conjunction rules => group conjunction rules fun r _ =>
      induct group text integer flag date mediaKind playlist unknown r
  | .text c => text c
  | .integer c => integer c
  | .flag c => flag c
  | .date c => date c
  | .mediaKind c => mediaKind c
  | .playlist c => playlist c
  | .unknown c => unknown c

mutual

def same : Rule → Rule → Bool
  | .group c rs, .group d ss => c == d && sameList rs ss
  | .text a, .text b => a == b
  | .integer a, .integer b => a == b
  | .flag a, .flag b => a == b
  | .date a, .date b => a == b
  | .mediaKind a, .mediaKind b => a == b
  | .playlist a, .playlist b => a == b
  | .unknown a, .unknown b => a == b
  | _, _ => false
termination_by structural rule => rule

def sameList : List Rule → List Rule → Bool
  | [], [] => true
  | r :: rs, s :: ss => same r s && sameList rs ss
  | _, _ => false
termination_by structural rules => rules

end

theorem sameList_iff {rs : List Rule} (h : ∀ r ∈ rs, ∀ s, same r s = true ↔ r = s)
    (ss : List Rule) : sameList rs ss = true ↔ rs = ss := by
  induction rs generalizing ss with
  | nil => cases ss <;> simp [sameList]
  | cons r rs ih =>
    cases ss with
    | nil => simp [sameList]
    | cons s ss =>
      simp only [sameList, Bool.and_eq_true, List.cons.injEq, h r (by simp) s,
        ih (fun r hr => h r (by simp [hr])) ss]

/-- Sameness of rules is equality. -/
theorem same_iff (r s : Rule) : same r s = true ↔ r = s := by
  induction r using induct generalizing s with
  | group c rs ih => cases s <;> simp [same, sameList_iff ih]
  | _ c => cases s <;> simp [same]

instance : DecidableEq Rule := fun r s => decidable_of_iff _ (same_iff r s)

def kindLabel : Rule → String
  | .group .. => "ruleset"
  | .text _ => "string"
  | .integer _ => "int"
  | .flag _ => "boolean"
  | .date _ => "date"
  | .mediaKind _ => "mediakind"
  | .playlist _ => "playlist"
  | .unknown _ => "unknown"

mutual

/-- Whether the rule, or one inside it, tests membership in a playlist. -/
def testsPlaylist : Rule → Bool
  | .playlist _ => true
  | .group _ rules => anyTestsPlaylist rules
  | _ => false
termination_by structural rule => rule

def anyTestsPlaylist : List Rule → Bool
  | [] => false
  | r :: rest => testsPlaylist r || anyTestsPlaylist rest
termination_by structural rules => rules

end

theorem anyTestsPlaylist_eq (rules : List Rule) :
    anyTestsPlaylist rules = rules.any testsPlaylist := by
  induction rules with
  | nil => rfl
  | cons r rest ih => simp [anyTestsPlaylist, ih]

end Rule

deriving instance DecidableEq for RuleSet

namespace RuleSet

def testsPlaylist (set : RuleSet) : Bool := set.rules.any Rule.testsPlaylist

end RuleSet

end Smart

structure Smart where
  ruleset : Smart.RuleSet
  limit : Option Smart.Limit := none
  liveUpdating : Bool := false
  checkedOnly : Bool := false
  deriving DecidableEq, Inhabited

end MusicLibrary
