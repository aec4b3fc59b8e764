import MusicLibrary.Smart.InfoRecord
import MusicLibrary.Smart.Slots
import MusicLibrary.Text.Utf16

/-! The criteria record of a smart playlist: the header of a rule set, and a block for each rule,
which is a head and a payload whose length the head gives. Reading fails on the outermost header
only: a rule that cannot be read becomes an unknown one, and a record that ends early keeps the
rules in front of the end. -/

namespace MusicLibrary.Smart

/-- The type of values that the payload of a rule holds. -/
inductive ValueKind where
  | rules | text | integer | flag | date | mediaKind | playlist
  /-- Whether a track is loved, by codes of its own. -/
  | love
  /-- Values that are not looked into. -/
  | sealed
  | unknown
  deriving DecidableEq

def Field.valueKind : Field → ValueKind
  | .ruleset => .rules
  | .album | .albumArtist | .artist | .category | .comments | .composer | .description | .genre |
    .grouping | .kind | .name | .series | .sortAlbum | .sortAlbumArtist | .sortComposer |
    .sortName | .sortSeries | .videoRating => .text
  | .bpm | .bitRate | .discNumber | .playCount | .rating | .podcast | .sampleRate | .season |
    .size | .skipCount | .totalTime | .trackNumber | .year | .albumRating => .integer
  | .compilation | .hasArtwork | .purchased | .disabled => .flag
  | .dateAdded | .dateModified | .playDate | .skipDate => .date
  | .mediaKind => .mediaKind
  | .playlistPersistentId => .playlist
  | .loved => .love
  | .cloudStatus | .location => .sealed
  | .other _ => .unknown

abbrev Head := Condition Unit

def Head.with (head : Head) (value : V) : Condition V :=
  ⟨head.field, head.sign, head.operator, value⟩

/-! Values. An empty payload holds no value. -/

/-- Seconds from the start of 1904, where dates of the record begin, to the start of 1970. -/
def dateEpoch : Int64 := 2082844800

def timeOfSeconds (n : UInt32) : Timestamp := .ofUnixSeconds (n.toUInt64.toInt64 - dateEpoch)

/-- The date of a time in whole seconds. -/
def secondsOfTime (t : Timestamp) : Int64 := Int64.ofInt t.unixSeconds + dateEpoch

/-- The units of an offset in seconds, from the longest: a year, a month, a week, a day, an hour
and a minute. -/
def offsetUnits : List Int64 := [31536000, 2592000, 604800, 86400, 3600, 60]

/-- The longest unit that measures an offset exactly. -/
def offsetUnit (seconds : Int64) : Int64 :=
  (offsetUnits.find? fun unit => seconds % unit == 0).getD 1

/-- A zero date in the last slot stands for no date. -/
def dropLastZero (values : List UInt32) : List UInt32 :=
  if values.getLast? = some 0 then values.dropLast else values

def decodeDates (operator : Operator) (slots : Slots) : List Timestamp :=
  if operator = .within then
    [⟨saturatingMul (saturatingMul slots.offset slots.flagOrUnit.toUInt64.toInt64) 1000⟩]
  else (dropLastZero slots.values).map timeOfSeconds

def encodeDates (operator : Operator) (first : Timestamp) (values : List Timestamp) : Slots :=
  if operator = .within then
    let seconds := first.ms / 1000
    let unit := offsetUnit seconds
    .relative (seconds / unit) unit.toUInt64.toUInt32
  else .ofValues (values.map secondsOfTime)

def lovedCode : UInt32 := 2

def dislikedCode : UInt32 := 3

def decodeLeaf (head : Head) (payload : List UInt8) : Except DecodeFault Rule := do
  match head.field.valueKind with
  | .rules | .sealed => return .unknown head
  | .unknown => throw (.unknownFieldType head.field.code)
  | .text =>
    return .text (head.with (if payload.isEmpty then [] else [Text.Utf16.decode payload]))
  | .integer =>
    if payload.isEmpty then return .integer (head.with [])
    let slots ← Slots.decode payload
    return .integer (head.with (slots.values.map fun n => n.toUInt64.toInt64))
  | .flag =>
    if payload.isEmpty then return .flag (head.with none)
    if payload.length < Slots.width then return .flag (head.with (some true))
    let slots ← Slots.decode payload
    return .flag (head.with (some (slots.first != 0)))
  | .date =>
    if payload.isEmpty then return .date (head.with [])
    let slots ← Slots.decode payload
    return .date (head.with (decodeDates head.operator slots))
  | .mediaKind =>
    if payload.isEmpty then return .mediaKind (head.with none)
    let slots ← Slots.decode payload
    return .mediaKind (head.with (some ⟨slots.first⟩))
  | .playlist =>
    if payload.isEmpty then return .playlist (head.with none)
    require payload 8 .playlistPayload
    return .playlist (head.with (some ⟨.ofNat (Bytes.fieldAt payload 0 8)⟩))
  | .love =>
    if payload.isEmpty then return .flag (head.with none)
    let slots ← Slots.decode payload
    return .flag (head.with
      (if slots.first = lovedCode then some true
       else if slots.first = dislikedCode then some false
       else none))

/-! Blocks. -/

def headWidth : Nat := 56

def readHead (bytes : List UInt8) : Head where
  field := .ofCode (.ofNat (Bytes.fieldAt bytes 0 4))
  sign := .ofCode (.ofNat (Bytes.fieldAt bytes 4 1))
  operator := .ofCode (.ofNat (Bytes.fieldAt bytes 6 2))
  value := ()

def payloadLength (bytes : List UInt8) : Nat := Bytes.fieldAt bytes 52 4

/-- A rule as it stands in the record. The payload is missing if the record ends inside it. -/
structure Block where
  head : Head
  payload : Option (List UInt8)

/-- The first so many blocks. Nothing is read behind a head or a payload that is cut off. -/
def blocks : Nat → List UInt8 → List Block
  | 0, _ => []
  | count + 1, bytes =>
    let rest := bytes.drop headWidth
    let length := payloadLength bytes
    if bytes.length < headWidth then []
    else if rest.length < length then [⟨readHead bytes, none⟩]
    else ⟨readHead bytes, some (rest.take length)⟩ :: blocks count (rest.drop length)

/-- A payload is shorter than the bytes that it stands in. -/
theorem length_payload_le {count : Nat} {bytes payload : List UInt8} {head : Head}
    (h : ⟨head, some payload⟩ ∈ blocks count bytes) :
    payload.length + headWidth ≤ bytes.length := by
  induction count generalizing bytes with
  | zero => simp [blocks] at h
  | succ count ih =>
    simp only [blocks] at h
    split at h
    · simp at h
    · split at h
      · simp at h
      · rcases List.mem_cons.1 h with h | h
        · simp only [Block.mk.injEq, Option.some.injEq] at h
          simp [h.2]
          omega
        · have := ih h
          simp at this
          omega

/-! Rule sets. -/

def headerWidth : Nat := 136

def leastHeaderWidth : Nat := 16

def readConjunction (bytes : List UInt8) : Conjunction :=
  .ofCode (.ofNat (Bytes.fieldAt bytes 12 4))

def readCount (bytes : List UInt8) : Nat := Bytes.fieldAt bytes 8 4

def readBlocks (bytes : List UInt8) : List Block :=
  blocks (readCount bytes) (bytes.drop headerWidth)

theorem length_payload_lt {bytes payload : List UInt8} {head : Head}
    (h : ⟨head, some payload⟩ ∈ readBlocks bytes) : payload.length < bytes.length := by
  have := length_payload_le h
  simp [headWidth] at this
  omega

/-- Refuses bytes without a complete header, which may be short if there are no rules. -/
def checkHeader (bytes : List UInt8) : Except DecodeFault Unit := do
  require bytes leastHeaderWidth .ruleSetHeader
  if readCount bytes ≠ 0 then require bytes headerWidth .ruleSetHeader

/-- The rule of a block, by a reader of nested rule sets. -/
def Block.rule (nested : List UInt8 → Except DecodeFault RuleSet) (block : Block) : Rule :=
  match block.payload with
  | none => .unknown block.head
  | some payload =>
    if block.head.field.valueKind = .rules then
      match nested payload with
      | .ok set => .group set.conjunction set.rules
      | .error _ => .unknown block.head
    else
      match decodeLeaf block.head payload with
      | .ok rule => rule
      | .error _ => .unknown block.head

def decodeCriteria (bytes : List UInt8) : Except DecodeFault RuleSet := do
  checkHeader bytes
  return ⟨readConjunction bytes, (readBlocks bytes).attach.map fun
    | ⟨⟨head, none⟩, _⟩ => .unknown head
    | ⟨⟨head, some payload⟩, _⟩ =>
      Block.rule (fun _ => decodeCriteria payload) ⟨head, some payload⟩⟩
termination_by bytes.length
decreasing_by exact length_payload_lt (by assumption)

/-- The rules of a record are those of its blocks. -/
theorem decodeCriteria_eq (bytes : List UInt8) :
    decodeCriteria bytes = (checkHeader bytes).map fun _ =>
      ⟨readConjunction bytes, (readBlocks bytes).map (Block.rule decodeCriteria)⟩ := by
  rw [decodeCriteria]
  cases checkHeader bytes with
  | error e => rfl
  | ok _ =>
    simp only [bind, Except.bind, pure, Except.pure, Except.map]
    congr 2
    conv => rhs; rw [← List.attach_map_subtype_val (readBlocks bytes), List.map_map]
    apply List.map_congr_left
    rintro ⟨⟨head, payload⟩, _⟩ _
    cases payload <;> rfl

/-! Writing. Unknown rules are left out. -/

def signature : List UInt8 := [0x53, 0x4C, 0x73, 0x74, 0, 1, 0, 1]

/-- A block from a head and a payload. The flag marks nested rules. -/
def encodeBlock (head : Head) (nested : Bool) (payload : List UInt8) : List UInt8 :=
  Bytes.bigEndian 4 head.field.code.toNat ++ head.sign.code :: 0 ::
    (Bytes.bigEndian 2 head.operator.code.toNat ++ Info.flagByte nested ::
      (Bytes.zeros 43 ++ Bytes.bigEndian 4 (fit32 payload.length) ++ payload))

def Condition.bare (c : Condition V) : Head := ⟨c.field, c.sign, c.operator, ()⟩

def encodeRuleSet (conjunction : Conjunction) (rules : List (List UInt8)) : List UInt8 :=
  signature ++ Bytes.bigEndian 4 (fit32 rules.length) ++
    Bytes.bigEndian 4 conjunction.code.toNat ++ Bytes.zeros 120 ++ rules.flatten

/-- The payload of a flag; whether a track is loved has codes of its own. -/
def flagSlots (field : Field) (flag : Bool) : Slots :=
  if field = .loved then .single (if flag then lovedCode else dislikedCode)
  else .single (if flag then 1 else 0)

mutual

def Rule.encode? : Rule → Option (List UInt8)
  | .group conjunction rules =>
    some (encodeBlock ⟨.ruleset, .pos, .is, ()⟩ true
      (encodeRuleSet conjunction (encodeRules rules)))
  | .text c => some (encodeBlock c.bare false ((c.value.head?.map Text.Utf16.encode).getD []))
  | .integer c =>
    some (encodeBlock c.bare false
      (if c.value.isEmpty then [] else (Slots.ofValues c.value).encode))
  | .flag c =>
    some (encodeBlock c.bare false
      ((c.value.map fun flag => (flagSlots c.field flag).encode).getD []))
  | .date c =>
    some (encodeBlock c.bare false
      ((c.value.head?.map fun first => (encodeDates c.operator first c.value).encode).getD []))
  | .mediaKind c =>
    some (encodeBlock c.bare false
      ((c.value.map fun kind => (Slots.single kind.bits).encode).getD []))
  | .playlist c =>
    some (encodeBlock c.bare false
      ((c.value.map fun id => Bytes.bigEndian 8 id.value.toNat).getD []))
  | .unknown _ => none
termination_by structural rule => rule

def encodeRules : List Rule → List (List UInt8)
  | [] => []
  | rule :: rest =>
    match rule.encode? with
    | some block => block :: encodeRules rest
    | none => encodeRules rest
termination_by structural rules => rules

end

theorem encodeRules_eq (rules : List Rule) : encodeRules rules = rules.filterMap Rule.encode? := by
  induction rules with
  | nil => rfl
  | cons rule rest ih =>
    simp only [encodeRules, List.filterMap_cons, ih]
    cases rule.encode? <;> rfl

def encodeCriteria (set : RuleSet) : List UInt8 :=
  encodeRuleSet set.conjunction (encodeRules set.rules)

end MusicLibrary.Smart
