import MusicLibrary.Json.Token

/-! Writing JSON text, either without any blanks or indented by two spaces a level. Characters
beyond ASCII stand for themselves. -/

namespace MusicLibrary.Json

def lowerHexDigit (n : Nat) : Char := Nat.digitChar n

def quotedChar (c : Char) : List Char :=
  if c = '\x22' then ['\x5c', '\x22']
  else if c = '\x5c' then ['\x5c', '\x5c']
  else if c = '\x08' then ['\x5c', 'b']
  else if c = '\x0c' then ['\x5c', 'f']
  else if c = '\n' then ['\x5c', 'n']
  else if c = '\r' then ['\x5c', 'r']
  else if c = '\t' then ['\x5c', 't']
  else if c.toNat < 0x20 then
    ['\x5c', 'u', '0', '0', lowerHexDigit (c.toNat / 16), lowerHexDigit (c.toNat % 16)]
  else [c]

def quoted (s : String) : List Char := '\x22' :: s.toList.flatMap quotedChar ++ ['\x22']

def integerChars (n : Int) : List Char :=
  if n < 0 then '-' :: Nat.toDigits 10 n.natAbs else Nat.toDigits 10 n.natAbs

def Token.chars : Token → List Char
  | .openArray => ['[']
  | .closeArray => [']']
  | .openObject => ['\x7b']
  | .closeObject => ['\x7d']
  | .comma => [',']
  | .colon => [':']
  | .null | .unreadableText | .unreadableNumber => ['n', 'u', 'l', 'l']
  | .boolean true => ['t', 'r', 'u', 'e']
  | .boolean false => ['f', 'a', 'l', 's', 'e']
  | .integer n => integerChars n
  | .decimal literal => literal.toList
  | .text s => quoted s

mutual

def tokens : Json → List Token
  | .null => [.null]
  | .boolean b => [.boolean b]
  | .integer n => [.integer n]
  | .decimal literal => [.decimal literal]
  | .text s => [.text s]
  | .unreadable => [.null]
  | .array [] => [.openArray, .closeArray]
  | .array (j :: rest) => .openArray :: j.tokens ++ itemTokens rest
  | .object [] => [.openObject, .closeObject]
  | .object (m :: rest) => .openObject :: memberTokens m ++ membersTokens rest
termination_by structural j => j

/-- The further items of an array, each after a comma, and the end of the array. -/
def itemTokens : List Json → List Token
  | [] => [.closeArray]
  | j :: rest => .comma :: j.tokens ++ itemTokens rest
termination_by structural items => items

/-- The further members of an object, each after a comma, and the end of the object. -/
def membersTokens : List (String × Json) → List Token
  | [] => [.closeObject]
  | m :: rest => .comma :: memberTokens m ++ membersTokens rest
termination_by structural members => members

def memberTokens : String × Json → List Token
  | (key, j) => .text key :: .colon :: j.tokens
termination_by structural m => m

end

def compactChars (j : Json) : List Char := j.tokens.flatMap Token.chars

def compact (j : Json) : String := String.ofList j.compactChars

def newLine (level : Nat) : List Char := '\n' :: List.replicate (2 * level) ' '

mutual

/-- The value with each item and member on a line of its own; empty ones stay closed. -/
def indentedChars (level : Nat) : Json → List Char
  | .array (j :: rest) =>
    '[' :: newLine (level + 1) ++ indentedChars (level + 1) j ++ indentedItems level rest
  | .object (m :: rest) =>
    '\x7b' :: newLine (level + 1) ++ indentedMember level m ++ indentedMembers level rest
  | .array [] => ['[', ']']
  | .object [] => ['\x7b', '\x7d']
  | .null => Token.chars .null
  | .boolean b => Token.chars (.boolean b)
  | .integer n => Token.chars (.integer n)
  | .decimal literal => Token.chars (.decimal literal)
  | .text s => Token.chars (.text s)
  | .unreadable => Token.chars .null
termination_by structural j => j

/-- The further items of an array at a level, and the end of the array. -/
def indentedItems (level : Nat) : List Json → List Char
  | [] => newLine level ++ [']']
  | j :: rest => ',' :: newLine (level + 1) ++ indentedChars (level + 1) j ++
      indentedItems level rest
termination_by structural items => items

/-- The further members of an object at a level, and the end of the object. -/
def indentedMembers (level : Nat) : List (String × Json) → List Char
  | [] => newLine level ++ ['\x7d']
  | m :: rest => ',' :: newLine (level + 1) ++ indentedMember level m ++
      indentedMembers level rest
termination_by structural members => members

def indentedMember (level : Nat) : String × Json → List Char
  | (key, j) => quoted key ++ [':', ' '] ++ indentedChars (level + 1) j
termination_by structural m => m

end

def indented (j : Json) : String := String.ofList (j.indentedChars 0)

end MusicLibrary.Json
