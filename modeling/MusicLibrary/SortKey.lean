import MusicLibrary.Text.BaseLetter
import MusicLibrary.Text.Blank
import MusicLibrary.Text.DecimalDigit
import MusicLibrary.Text.Mark
import MusicLibrary.Text.Numeral
import MusicLibrary.Word

/-! Sort keys of display texts, so that "The Beatles", "beatles" and "Beatles" fall together. A
key holds lower-case letters, digits, single spaces, and a tilde in front of each number that
starts a word, which sorts numbers after letters. -/

namespace MusicLibrary.SortKey

/-- The text without accents and in lower case, as far as letters of the key are concerned. -/
def plain (cs : List Char) : List Char :=
  cs.filterMap fun c => if Text.isMark c then none else some (Text.baseLetter c).toLower

def isKeyChar (c : Char) : Bool := ('a' ≤ c && c ≤ 'z') || ('0' ≤ c && c ≤ '9')

/-- A number with grouping commas, marked by a tilde and filled up to six digits. Digits of other
scripts and numbers beyond sixty-four bits stay as they are. -/
def canonicalNumber (run : List Char) : List Char :=
  match (Text.readSigned 10 (run.filter (· ≠ ','))).bind word64? with
  | some n => '~' :: Text.paddedDecimal 6 n.toInt.natAbs
  | none => run

/-- The text with the number at its start, if it has one, in canonical form. -/
def markLeadingNumber : List Char → List Char
  | [] => []
  | c :: rest =>
    if Text.isDecimalDigit c then
      let inNumber := fun d => Text.isDecimalDigit d || d == ','
      canonicalNumber (c :: rest.takeWhile inNumber) ++ rest.dropWhile inNumber
    else c :: rest

def separateWords : List Char → List Char
  | [] => []
  | [c] => [if isKeyChar c then c else ' ']
  | c :: d :: rest =>
    if isKeyChar c then c :: separateWords (d :: rest)
    else if isKeyChar d then ' ' :: separateWords (d :: rest)
    else separateWords (d :: rest)

/-- An article as the first word gives way to a space. -/
def dropArticle : List Char → List Char
  | 'a' :: ' ' :: rest => ' ' :: rest
  | 'a' :: 'n' :: ' ' :: rest => ' ' :: rest
  | 't' :: 'h' :: 'e' :: ' ' :: rest => ' ' :: rest
  | cs => cs

/-- A space in front of a digit becomes a tilde. -/
def markNumbers : List Char → List Char
  | [] => []
  | [c] => [c]
  | c :: d :: rest =>
    (if c = ' ' ∧ '0' ≤ d ∧ d ≤ '9' then '~' else c) :: markNumbers (d :: rest)

/-- Each run of blanks becomes one space. -/
def collapseBlanks : List Char → List Char
  | [] => []
  | [c] => [if Text.isBlank c then ' ' else c]
  | c :: d :: rest =>
    if !Text.isBlank c then c :: collapseBlanks (d :: rest)
    else if Text.isBlank d then collapseBlanks (d :: rest)
    else ' ' :: collapseBlanks (d :: rest)

def dropFinalMarks (cs : List Char) : List Char := (cs.reverse.dropWhile (· == '~')).reverse

/-- The key of a text that is plain already. -/
def ofPlain (cs : List Char) : List Char :=
  Text.trimChars (dropFinalMarks (collapseBlanks
    (markNumbers (dropArticle (separateWords (markLeadingNumber cs))))))

def chars (cs : List Char) : List Char := ofPlain (plain cs)

def before? (separator : List Char) : List Char → Option (List Char)
  | [] => if separator.isEmpty then some [] else none
  | c :: rest =>
    if separator.isPrefixOf (c :: rest) then some []
    else (before? separator rest).map (c :: ·)

/-- The words that introduce a featured artist, in the order in which they are looked for. -/
def separators : List (List Char) :=
  [" feat ".toList, " featuring ".toList, " with ".toList]

/-- The key up to the first separator that it has, in the order of the list. -/
def dropFeatured (key : List Char) : List Char :=
  Text.trimChars ((separators.findSome? fun separator => before? separator key).getD key)

def artistChars (cs : List Char) : List Char := dropFeatured (chars cs)

def ofText (s : String) : String := String.ofList (chars s.toList)

def ofArtist (s : String) : String := String.ofList (artistChars s.toList)

end MusicLibrary.SortKey
