/-! JSON values. Integers are exact; a number written with a fraction or an exponent keeps its
text and is no integer. An object keeps its members in order, repeated keys included. -/

namespace MusicLibrary

inductive Json where
  | null
  | boolean (value : Bool)
  | integer (value : Int)
  /-- A number with a fraction, an exponent, or a sign in front of zero. -/
  | decimal (literal : String)
  | text (value : String)
  /-- Well-formed, but without a value: a text with an unpaired surrogate escape, an object with
  such a text for a key, or a number too large for a double. -/
  | unreadable
  | array (items : List Json)
  | object (members : List (String × Json))
  deriving Inhabited

namespace Json

mutual

def depth : Json → Nat
  | .array items => 1 + depthOfItems items
  | .object members => 1 + depthOfMembers members
  | _ => 0
termination_by structural j => j

def depthOfItems : List Json → Nat
  | [] => 0
  | j :: rest => max j.depth (depthOfItems rest)
termination_by structural items => items

def depthOfMembers : List (String × Json) → Nat
  | [] => 0
  | m :: rest => max (depthOfMember m) (depthOfMembers rest)
termination_by structural members => members

def depthOfMember : String × Json → Nat
  | (_, j) => j.depth
termination_by structural m => m

end

mutual

def isReadable : Json → Bool
  | .unreadable => false
  | .array items => areReadable items
  | .object members => membersReadable members
  | _ => true
termination_by structural j => j

def areReadable : List Json → Bool
  | [] => true
  | j :: rest => j.isReadable && areReadable rest
termination_by structural items => items

def membersReadable : List (String × Json) → Bool
  | [] => true
  | m :: rest => memberReadable m && membersReadable rest
termination_by structural members => members

def memberReadable : String × Json → Bool
  | (_, j) => j.isReadable
termination_by structural m => m

end

mutual

/-- The value with one member for each key: of repeated keys the last one counts. -/
def lastWins : Json → Json
  | .array items => .array (itemsLastWin items)
  | .object members => .object (membersLastWin members)
  | j => j
termination_by structural j => j

def itemsLastWin : List Json → List Json
  | [] => []
  | j :: rest => j.lastWins :: itemsLastWin rest
termination_by structural items => items

def membersLastWin : List (String × Json) → List (String × Json)
  | [] => []
  | m :: rest =>
    if rest.any (fun later => later.1 == m.1) then membersLastWin rest
    else memberLastWins m :: membersLastWin rest
termination_by structural members => members

def memberLastWins : String × Json → String × Json
  | (key, j) => (key, j.lastWins)
termination_by structural m => m

end

def member? : Json → String → Option Json
  | .object members, key => members.lookup key
  | _, _ => none

def ofMembers (members : List (Option (String × Json))) : Json := .object (members.filterMap id)

end Json

end MusicLibrary
