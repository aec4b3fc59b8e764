import MusicLibrary.Json.Token

/-! The parser of JSON text: a machine that takes one token at a time and keeps a frame for each
array or object it is inside of. The grammar does not ask whether a text has a value, so an object
whose key has none is read to its end. -/

namespace MusicLibrary.Json

/-- The members of an object so far, the last one first; a key without a value is missing. -/
abbrev PartialObject := List (Option String × Json)

def PartialObject.finish (members : PartialObject) : Json :=
  match members.reverse.mapM fun m => m.1.map fun key => (key, m.2) with
  | some members => .object members
  | none => .unreadable

/-- An array or object that is still open, with what it holds so far, the last part first. -/
inductive Frame where
  | array (items : List Json)
  | member (members : PartialObject) (key : Option String)

inductive Expects where
  | value
  | firstItem
  | firstKey
  | key (members : PartialObject)
  | colon (members : PartialObject) (key : Option String)
  /-- The end of the text, a comma or a closing bracket, after a complete value. -/
  | rest (value : Json)

structure Machine where
  frames : List Frame
  expects : Expects

def Token.scalar? : Token → Option Json
  | .null => some .null
  | .boolean b => some (.boolean b)
  | .integer n => some (.integer n)
  | .decimal literal => some (.decimal literal)
  | .text s => some (.text s)
  | .unreadableText | .unreadableNumber => some .unreadable
  | _ => none

/-- The key that a token is; a text without a value is a key all the same. -/
def Token.key? : Token → Option (Option String)
  | .text s => some (some s)
  | .unreadableText => some none
  | _ => none

def Machine.startValue (frames : List Frame) : Token → Option Machine
  | .openArray => some ⟨.array [] :: frames, .firstItem⟩
  | .openObject => some ⟨frames, .firstKey⟩
  | token => token.scalar?.map fun j => ⟨frames, .rest j⟩

def Machine.afterValue (value : Json) : List Frame → Token → Option Machine
  | .array items :: frames, .comma => some ⟨.array (value :: items) :: frames, .value⟩
  | .array items :: frames, .closeArray =>
    some ⟨frames, .rest (.array (value :: items).reverse)⟩
  | .member members key :: frames, .comma => some ⟨frames, .key ((key, value) :: members)⟩
  | .member members key :: frames, .closeObject =>
    some ⟨frames, .rest (PartialObject.finish ((key, value) :: members))⟩
  | _, _ => none

def Machine.step (m : Machine) (token : Token) : Option Machine :=
  match m.expects, token with
  | .value, _ => startValue m.frames token
  | .firstItem, .closeArray =>
    match m.frames with
    | .array _ :: frames => some ⟨frames, .rest (.array [])⟩
    | _ => none
  | .firstItem, _ => startValue m.frames token
  | .firstKey, .closeObject => some ⟨m.frames, .rest (.object [])⟩
  | .firstKey, token => token.key?.map fun key => ⟨m.frames, .colon [] key⟩
  | .key members, token => token.key?.map fun key => ⟨m.frames, .colon members key⟩
  | .colon members key, .colon => some ⟨.member members key :: m.frames, .value⟩
  | .rest value, _ => afterValue value m.frames token
  | _, _ => none

def Machine.result? : Machine → Option Json
  | ⟨[], .rest value⟩ => some value
  | _ => none

def ofTokens? (tokens : List Token) : Option Json :=
  (tokens.foldlM Machine.step ⟨[], .value⟩).bind Machine.result?

/-- The value that a text spells; nothing but blanks may surround it. -/
def parse? (s : String) : Option Json := (tokensOfText s).bind ofTokens?

end MusicLibrary.Json
