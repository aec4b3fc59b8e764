import MusicLibrary.BinaryFloat
import MusicLibrary.Json.Basic
import MusicLibrary.Text.Numeral

/-! The tokens of JSON text. A scanner reads them character by character; its state says where
in a token it stands, so no character is looked at twice. -/

namespace MusicLibrary.Json

inductive Token where
  | openArray | closeArray | openObject | closeObject | comma | colon
  | null
  | boolean (value : Bool)
  | integer (value : Int)
  | decimal (literal : String)
  | text (value : String)
  | unreadableText
  | unreadableNumber
  deriving DecidableEq, Inhabited

inductive NumberPhase where
  | sign | zero | whole | point | fraction | exponentMark | exponentSign | exponent
  deriving DecidableEq

/-- A text as far as it has been read. -/
structure PartialText where
  seen : List Char
  sound : Bool
  high : Option Nat

inductive Scan where
  | between
  | word (rest : List Char) (token : Token)
  /-- Inside a number, with its characters so far, the last one first. -/
  | number (phase : NumberPhase) (seen : List Char)
  | text (read : PartialText)
  | escape (read : PartialText)
  /-- Inside a four-digit escape, with the count of digits still to come. -/
  | unicode (read : PartialText) (left value : Nat)

namespace NumberPhase

/-- The phase after one more character of a number, or none if the number ends before it. -/
def next? (phase : NumberPhase) (c : Char) : Option NumberPhase :=
  if c.isDigit then
    match phase with
    | .sign => some (if c = '0' then .zero else .whole)
    | .zero => none
    | .whole => some .whole
    | .point | .fraction => some .fraction
    | .exponentMark | .exponentSign | .exponent => some .exponent
  else if c = '.' then
    if phase = .zero ∨ phase = .whole then some .point else none
  else if c = 'e' ∨ c = 'E' then
    if phase = .zero ∨ phase = .whole ∨ phase = .fraction then some .exponentMark else none
  else if c = '+' ∨ c = '-' then
    if phase = .exponentMark then some .exponentSign else none
  else none

def mayEnd : NumberPhase → Bool
  | .zero | .whole | .fraction | .exponent => true
  | _ => false

end NumberPhase

/-- Whether a number literal lies beyond the doubles. Its digits are read into a significand for
as long as they fit sixty-four bits, further digits of the whole part count as zeros, and the
significand is multiplied by a power of ten: both factors and the product are rounded, so the
bound is not quite the one of exact arithmetic. -/
def exceedsDouble (whole fraction : List Char) (exponent : Int) : Bool :=
  let fits := fun n digit => decide (10 * n + digit < UInt64.size)
  let (n, taken) := Text.readWhile fits 0 0 whole
  let (n, further) := Text.readWhile fits n 0 fraction
  let power := exponent + ((whole.length : Int) - taken) - further
  let rounded := fun m => (BinaryFloat.ofNat m).round 53
  n ≠ 0 && 0 ≤ power &&
    (308 < power ||
      !((rounded n).mul 53 (rounded (Nat.pow 10 power.toNat))).isFiniteDouble)

def numberToken (negative : Bool) (literal : List Char) : Token :=
  let whole := literal.takeWhile Char.isDigit
  let rest := literal.dropWhile Char.isDigit
  let fraction := if rest.head? = some '.' then rest.tail.takeWhile Char.isDigit else []
  let mark := literal.dropWhile fun c => c ≠ 'e' ∧ c ≠ 'E'
  let negativeExponent := mark.tail.head? = some '-'
  let power := Text.decimalValue (mark.filter Char.isDigit)
  let exponent : Int := if negativeExponent then -(power : Int) else power
  let written := String.ofList (if negative then '-' :: literal else literal)
  if exceedsDouble whole fraction exponent then .unreadableNumber
  else if rest.isEmpty && !(negative && whole == ['0']) then
    .integer (if negative then -(Text.decimalValue whole : Int) else Text.decimalValue whole)
  else .decimal written

/-- The token of a number from its characters, the last one first. -/
def numberTokenOfSeen (seen : List Char) : Token :=
  match seen.reverse with
  | '-' :: literal => numberToken true literal
  | literal => numberToken false literal

namespace PartialText

def empty : PartialText := ⟨[], true, none⟩

/-- A character other than the second surrogate of a pair: a waiting surrogate stays alone. -/
def push (read : PartialText) (c : Char) : PartialText :=
  ⟨c :: read.seen, read.sound && read.high.isNone, none⟩

def pushUnit (read : PartialText) (unit : Nat) : PartialText :=
  let isHigh := 0xD800 ≤ unit ∧ unit < 0xDC00
  let isLow := 0xDC00 ≤ unit ∧ unit < 0xE000
  match read.high with
  | some high =>
    if isLow then
      ⟨Char.ofNat (0x10000 + (high - 0xD800) * 0x400 + (unit - 0xDC00)) :: read.seen,
        read.sound, none⟩
    else { read with sound := false, high := none }
  | none =>
    if isHigh then { read with high := some unit }
    else if isLow then { read with sound := false }
    else ⟨Char.ofNat unit :: read.seen, read.sound, none⟩

def token (read : PartialText) : Token :=
  if read.sound && read.high.isNone then .text (String.ofList read.seen.reverse)
  else .unreadableText

end PartialText

def escaped? (c : Char) : Option Char :=
  if c = '\x22' ∨ c = '\x5c' ∨ c = '/' then some c
  else if c = 'b' then some '\x08'
  else if c = 'f' then some '\x0c'
  else if c = 'n' then some '\n'
  else if c = 'r' then some '\r'
  else if c = 't' then some '\t'
  else none

def escapeDigit? (c : Char) : Option Nat :=
  if '0' ≤ c ∧ c ≤ '9' then some (c.toNat - 48)
  else if 'a' ≤ c ∧ c ≤ 'f' then some (c.toNat - 87)
  else if 'A' ≤ c ∧ c ≤ 'F' then some (c.toNat - 55)
  else none

/-- A character between two tokens: a blank, a token of its own, or the start of a longer one. -/
def start (c : Char) : Option (List Token × Scan) :=
  if c = ' ' ∨ c = '\t' ∨ c = '\n' ∨ c = '\r' then some ([], .between)
  else if c = '[' then some ([.openArray], .between)
  else if c = ']' then some ([.closeArray], .between)
  else if c = '\x7b' then some ([.openObject], .between)
  else if c = '\x7d' then some ([.closeObject], .between)
  else if c = ',' then some ([.comma], .between)
  else if c = ':' then some ([.colon], .between)
  else if c = '\x22' then some ([], .text .empty)
  else if c = 't' then some ([], .word ['r', 'u', 'e'] (.boolean true))
  else if c = 'f' then some ([], .word ['a', 'l', 's', 'e'] (.boolean false))
  else if c = 'n' then some ([], .word ['u', 'l', 'l'] .null)
  else if c = '-' then some ([], .number .sign [c])
  else if c.isDigit then some ([], .number (if c = '0' then .zero else .whole) [c])
  else none

/-- One character: the tokens that it completes and the state after it, or none if no text can
hold it there. -/
def Scan.step : Scan → Char → Option (List Token × Scan)
  | .between, c => start c
  | .word [] token, c => (start c).map fun out => (token :: out.1, out.2)
  | .word (w :: rest) token, c =>
    if c = w then
      match rest with
      | [] => some ([token], .between)
      | _ => some ([], .word rest token)
    else none
  | .number phase seen, c =>
    match phase.next? c with
    | some next => some ([], .number next (c :: seen))
    | none =>
      if phase.mayEnd && !c.isDigit then
        (start c).map fun out => (numberTokenOfSeen seen :: out.1, out.2)
      else none
  | .text read, c =>
    if c = '\x22' then some ([read.token], .between)
    else if c = '\x5c' then some ([], .escape read)
    else if c.toNat < 0x20 then none
    else some ([], .text (read.push c))
  | .escape read, c =>
    if c = 'u' then some ([], .unicode read 4 0)
    else (escaped? c).map fun e => ([], .text (read.push e))
  | .unicode read left value, c =>
    (escapeDigit? c).map fun d =>
      let value := 16 * value + d
      ([], if left ≤ 1 then .text (read.pushUnit value) else .unicode read (left - 1) value)

def Scan.finish : Scan → Option (List Token)
  | .between => some []
  | .word [] token => some [token]
  | .number phase seen => if phase.mayEnd then some [numberTokenOfSeen seen] else none
  | _ => none

/-- Scans the rest of a text; the tokens found so far come with the last one first. -/
def scanFrom (state : Scan) (found : List Token) : List Char → Option (List Token)
  | [] => state.finish.map fun last => (last.reverse ++ found).reverse
  | c :: rest =>
    match state.step c with
    | some (new, next) => scanFrom next (new.reverse ++ found) rest
    | none => none

def tokensOfText (s : String) : Option (List Token) := scanFrom .between [] s.toList

example : tokensOfText "[-12, 1e2]" =
    some [.openArray, .integer (-12), .comma, .decimal "1e2", .closeArray] := by decide +kernel

/-- A pair of surrogate escapes is one character; half a pair has no value. -/
example : tokensOfText "\"\\ud83d\\ude00\" \"\\ud83d\"" =
    some [.text "😀", .unreadableText] := by decide +kernel

end MusicLibrary.Json
