import MusicLibrary.Smart.CriteriaRecord
import MusicLibrary.Text.Base64
import MusicLibrary.Text.Blank

/-! The two forms of a whole smart playlist: a pair of base64 texts in a library file, and one
sequence of bytes in the store. -/

namespace MusicLibrary.Smart

def decodeRecords (info criteria : List UInt8) : Except DecodeFault Smart := do
  let info ← Info.decode info
  let ruleset ← decodeCriteria criteria
  return ofParts info ruleset

/-- The bytes of a base64 text; blanks in it do not count. -/
def decodeBase64 (text : String) : Except DecodeFault (List UInt8) :=
  match Text.Base64.decode (text.toList.filter (! Text.isBlank ·)) with
  | some bytes => .ok bytes
  | none => .error .base64

def decodeTexts (info criteria : String) : Except DecodeFault Smart := do
  let info ← decodeBase64 info
  let criteria ← decodeBase64 criteria
  decodeRecords info criteria

def encodeTexts (smart : Smart) : String × String :=
  (String.ofList (Text.Base64.encode (info smart).encode),
   String.ofList (Text.Base64.encode (encodeCriteria smart.ruleset)))

def framed (bytes : List UInt8) : List UInt8 := Bytes.bigEndian 4 (fit32 bytes.length) ++ bytes

def unframe (bytes : List UInt8) (part : Part) : Except DecodeFault (List UInt8 × List UInt8) := do
  require bytes 4 part
  let length := Bytes.fieldAt bytes 0 4
  require bytes (4 + length) part
  return ((bytes.drop 4).take length, bytes.drop (4 + length))

def toBytes (smart : Smart) : List UInt8 :=
  framed (info smart).encode ++ framed (encodeCriteria smart.ruleset)

def ofBytes (bytes : List UInt8) : Except DecodeFault Smart := do
  let (info, rest) ← unframe bytes .infoLength
  let (criteria, _) ← unframe rest .criteriaLength
  decodeRecords info criteria

@[simp] theorem length_framed (bytes : List UInt8) : (framed bytes).length = 4 + bytes.length := by
  simp [framed]

end MusicLibrary.Smart
