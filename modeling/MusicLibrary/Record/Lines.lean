import MusicLibrary.Json.Parser
import MusicLibrary.Record.Basic
import MusicLibrary.Text.Blank

/-! Library files: one record a line, as JSON. Blank lines count as lines but hold no record. -/

namespace MusicLibrary

/-- Why a line holds no record. -/
inductive LineFault where
  | notText
  /-- The text of the line, by its number from one, is no record. -/
  | notRecord (line : Nat)
  deriving DecidableEq

namespace RecordLines

/-- Puts a byte in front of the first line. -/
def consFirst (byte : UInt8) : List (List UInt8) → List (List UInt8)
  | [] => [[byte]]
  | line :: rest => (byte :: line) :: rest

/-- The bytes cut behind every line feed. -/
def cut : List UInt8 → List (List UInt8)
  | [] => []
  | byte :: rest => if byte = 10 then [10] :: cut rest else consFirst byte (cut rest)

/-- A line without its line feed, and without a carriage return in front of it. -/
def content (line : List UInt8) : List UInt8 :=
  match line.reverse with
  | 10 :: 13 :: rest => rest.reverse
  | 10 :: rest => rest.reverse
  | _ => line

def text? (bytes : List UInt8) : Option String := String.fromUTF8? ⟨bytes.toArray⟩

/-- What the line with a number holds; nothing if it is blank. -/
def readLine (number : Nat) (line : List UInt8) : Option (Except LineFault LibraryRecord) :=
  match text? (content line) with
  | none => some (.error .notText)
  | some s =>
    if Text.isBlankText s then none
    else match (Json.parse? s).bind LibraryRecord.ofJson? with
      | some record => some (.ok record)
      | none => some (.error (.notRecord number))

def readFrom (number : Nat) : List (List UInt8) → List (Except LineFault LibraryRecord)
  | [] => []
  | line :: rest =>
    match readLine number line with
    | some item => item :: readFrom (number + 1) rest
    | none => readFrom (number + 1) rest

def read (bytes : List UInt8) : List (Except LineFault LibraryRecord) := readFrom 1 (cut bytes)

example : (cut [65, 10, 10, 66]).map content = [[65], [], [66]] := by decide

end RecordLines

end MusicLibrary
