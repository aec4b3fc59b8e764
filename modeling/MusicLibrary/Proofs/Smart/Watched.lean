import MusicLibrary.Proofs.Smart.Framing

/-! Reading a criteria record under watch: beside what is read, it is noted which stretches of the
record were looked at. Main statement: what is read is what is read without a watch, and every
stretch lies inside the record, whatever lengths and counts the record claims. -/

namespace MusicLibrary.Smart

/-- A stretch of a record: the place of its first byte, and its width. -/
structure Span where
  start : Nat
  width : Nat
  deriving DecidableEq

/-- A value, together with the stretches that were looked at for it. -/
structure Watched (α : Type) where
  value : α
  spans : List Span

namespace Watched

instance : Monad Watched where
  pure value := ⟨value, []⟩
  bind first next := ⟨(next first.value).value, first.spans ++ (next first.value).spans⟩

variable {α β : Type}

/-- One after the other. -/
def each (watched : List (Watched α)) : Watched (List α) :=
  ⟨watched.map (·.value), watched.flatMap (·.spans)⟩

/-- The value is the given one, and no stretch goes beyond the end. -/
structure Gives (watched : Watched α) (value : α) (stop : Nat) : Prop where
  value : watched.value = value
  inside : ∀ span ∈ watched.spans, span.start + span.width ≤ stop

theorem gives_pure (value : α) (stop : Nat) : (pure value : Watched α).Gives value stop :=
  ⟨rfl, nofun⟩

theorem Gives.bind {first : Watched α} {next : α → Watched β} {a : α} {b : β} {stop : Nat}
    (h : first.Gives a stop) (h' : (next a).Gives b stop) : (first >>= next).Gives b stop := by
  obtain ⟨rfl, inside⟩ := h
  refine ⟨h'.value, fun span mem => ?_⟩
  rcases List.mem_append.1 mem with mem | mem
  · exact inside span mem
  · exact h'.inside span mem

theorem Gives.mono {watched : Watched α} {value : α} {stop stop' : Nat}
    (h : watched.Gives value stop) (le : stop ≤ stop') : watched.Gives value stop' :=
  ⟨h.value, fun span mem => Nat.le_trans (h.inside span mem) le⟩

theorem gives_each {β : Type} {items : List β} {watch : β → Watched α} {value : β → α} {stop : Nat}
    (h : ∀ item ∈ items, (watch item).Gives (value item) stop) :
    (each (items.map watch)).Gives (items.map value) stop := by
  constructor
  · rw [each, List.map_map]
    exact List.map_congr_left fun item mem => (h item mem).value
  · intro span mem
    simp only [each, List.flatMap_map, List.mem_flatMap] at mem
    obtain ⟨item, mem, found⟩ := mem
    exact (h item mem).inside span found

end Watched

/-- Bytes of a record, and where they start in it. -/
structure View where
  start : Nat
  bytes : List UInt8

namespace View

def stop (v : View) : Nat := v.start + v.bytes.length

/-- The bytes behind the first ones; nothing is looked at for them. -/
def behind (v : View) (count : Nat) : View :=
  ⟨v.start + min count v.bytes.length, v.bytes.drop count⟩

def taken (v : View) (width : Nat) : View := ⟨v.start, v.bytes.take width⟩

/-- The slice of the first bytes. -/
def front (v : View) (width : Nat) : Watched View := ⟨v.taken width, [⟨v.start, width⟩]⟩

/-- The number in a slice of the bytes. -/
def field (v : View) (start width : Nat) : Watched Nat :=
  ⟨Bytes.fieldAt v.bytes start width, [⟨v.start + start, width⟩]⟩

variable {v : View} {start width : Nat}

theorem stop_behind (v : View) (count : Nat) : (v.behind count).stop = v.stop := by
  simp only [stop, behind, List.length_drop]
  omega

theorem stop_taken_le (v : View) (width : Nat) : (v.taken width).stop ≤ v.stop :=
  Nat.add_le_add_left (List.length_take_le' _ _) _

theorem gives_front (h : width ≤ v.bytes.length) :
    (v.front width).Gives (v.taken width) v.stop := by
  refine ⟨rfl, fun span mem => ?_⟩
  rw [List.mem_singleton.1 mem, stop]
  exact Nat.add_le_add_left h _

theorem gives_field (h : start + width ≤ v.bytes.length) :
    (v.field start width).Gives (Bytes.fieldAt v.bytes start width) v.stop := by
  refine ⟨rfl, fun span mem => ?_⟩
  rw [List.mem_singleton.1 mem, stop]
  change v.start + start + width ≤ v.start + v.bytes.length
  omega

end View

open Watched (gives_pure)

/-! Payloads. -/

def watchSlots (v : View) : Watched (Except DecodeFault Slots) :=
  match require v.bytes Slots.width .integerPayload with
  | .error fault => pure (.error fault)
  | .ok _ => do
    let marker ← v.field 0 4
    let first ← v.field 4 4
    let offset ← v.field 8 8
    let flagOrUnit ← v.field 20 4
    let _ ← v.field 24 4
    let second ← v.field 28 4
    let thirdFlag ← v.field 44 4
    let third ← v.field 52 4
    pure (.ok {
      marker := .ofNat marker
      first := .ofNat first
      offset := (UInt64.ofNat offset).toInt64
      flagOrUnit := .ofNat flagOrUnit
      second := .ofNat second
      thirdFlag := .ofNat thirdFlag
      third := .ofNat third })

theorem gives_watchSlots (v : View) : (watchSlots v).Gives (Slots.decode v.bytes) v.stop := by
  rw [watchSlots, Slots.decode]
  cases long : require v.bytes Slots.width .integerPayload with
  | error fault => exact gives_pure _ _
  | ok _ =>
    have width : 68 ≤ v.bytes.length := require_eq_ok_iff.1 long
    exact (View.gives_field (by omega)).bind <| (View.gives_field (by omega)).bind <|
      (View.gives_field (by omega)).bind <| (View.gives_field (by omega)).bind <|
      (View.gives_field (by omega)).bind <| (View.gives_field (by omega)).bind <|
      (View.gives_field (by omega)).bind <| (View.gives_field (by omega)).bind <| gives_pure _ _

/-- A payload of slots, or an empty one. -/
def watchUsed (v : View) (bare : Rule) (f : Slots → Rule) : Watched (Except DecodeFault Rule) :=
  if v.bytes.isEmpty then pure (.ok bare)
  else do
    let slots ← watchSlots v
    pure (slots.map f)

theorem gives_mapSlots (v : View) (f : Slots → Rule) :
    (do let slots ← watchSlots v; pure (slots.map f)).Gives
      (do let slots ← Slots.decode v.bytes; return f slots) v.stop := by
  refine (gives_watchSlots v).bind ?_
  cases Slots.decode v.bytes <;> exact gives_pure _ _

theorem gives_watchUsed (v : View) (bare : Rule) (f : Slots → Rule) :
    (watchUsed v bare f).Gives
      (if v.bytes.isEmpty = true then .ok bare
        else do let slots ← Slots.decode v.bytes; return f slots) v.stop := by
  rw [watchUsed]
  split
  · exact gives_pure _ _
  · exact gives_mapSlots v f

def watchLeaf (head : Head) (v : View) : Watched (Except DecodeFault Rule) :=
  match head.field.valueKind with
  | .rules | .sealed => pure (.ok (.unknown head))
  | .unknown => pure (.error (.unknownFieldType head.field.code))
  | .text =>
    if v.bytes.isEmpty then pure (.ok (.text (head.with [])))
    else do
      let text ← v.front v.bytes.length
      pure (.ok (.text (head.with [Text.Utf16.decode text.bytes])))
  | .integer =>
    watchUsed v (.integer (head.with [])) fun slots =>
      .integer (head.with (slots.values.map fun n => n.toUInt64.toInt64))
  | .flag =>
    if v.bytes.isEmpty then pure (.ok (.flag (head.with none)))
    else if v.bytes.length < Slots.width then pure (.ok (.flag (head.with (some true))))
    else do
      let slots ← watchSlots v
      pure (slots.map fun slots => .flag (head.with (some (slots.first != 0))))
  | .date =>
    watchUsed v (.date (head.with [])) fun slots =>
      .date (head.with (decodeDates head.operator slots))
  | .mediaKind =>
    watchUsed v (.mediaKind (head.with none)) fun slots =>
      .mediaKind (head.with (some ⟨slots.first⟩))
  | .playlist =>
    if v.bytes.isEmpty then pure (.ok (.playlist (head.with none)))
    else match require v.bytes 8 .playlistPayload with
      | .error fault => pure (.error fault)
      | .ok _ => do
        let id ← v.field 0 8
        pure (.ok (.playlist (head.with (some ⟨.ofNat id⟩))))
  | .love =>
    watchUsed v (.flag (head.with none)) fun slots =>
      .flag (head.with
        (if slots.first = lovedCode then some true
         else if slots.first = dislikedCode then some false
         else none))

theorem gives_watchLeaf (head : Head) (v : View) :
    (watchLeaf head v).Gives (decodeLeaf head v.bytes) v.stop := by
  cases kind : head.field.valueKind <;> simp only [watchLeaf, decodeLeaf, kind]
  case rules | sealed | unknown => exact gives_pure _ _
  case text =>
    by_cases empty : v.bytes = []
    · simp only [empty, List.isEmpty_nil]
      exact gives_pure _ _
    · have used : v.bytes.isEmpty = false := by simpa using empty
      simp only [used]
      refine (View.gives_front (Nat.le_refl _)).bind ?_
      rw [View.taken, List.take_length]
      exact gives_pure _ _
  case integer | date | mediaKind | love => exact gives_watchUsed v _ _
  case flag =>
    split
    · exact gives_pure _ _
    · split
      · exact gives_pure _ _
      · exact gives_mapSlots v _
  case playlist =>
    split
    · exact gives_pure _ _
    · cases long : require v.bytes 8 .playlistPayload with
      | error fault => exact gives_pure _ _
      | ok _ =>
        have width : 8 ≤ v.bytes.length := require_eq_ok_iff.1 long
        exact (View.gives_field (by omega)).bind (gives_pure _ _)

/-! Blocks. -/

/-- A block whose payload is left where it stands. -/
structure BlockView where
  head : Head
  payload : Option View

def BlockView.block (b : BlockView) : Block := ⟨b.head, b.payload.map (·.bytes)⟩

/-- The head of the first block, and the length of its payload. -/
def watchFront (v : View) : Watched (Head × Nat) := do
  let header ← v.front headWidth
  let field ← header.field 0 4
  let sign ← header.field 4 1
  let operator ← header.field 6 2
  let length ← header.field 52 4
  let head := {
    field := .ofCode (.ofNat field)
    sign := .ofCode (.ofNat sign)
    operator := .ofCode (.ofNat operator)
    value := () }
  pure (head, length)

def watchBlocks : Nat → View → Watched (List BlockView)
  | 0, _ => pure []
  | count + 1, v =>
    if v.bytes.length < headWidth then pure []
    else do
      let (head, length) ← watchFront v
      let rest := v.behind headWidth
      if rest.bytes.length < length then pure [⟨head, none⟩]
      else do
        let payload ← rest.front length
        let others ← watchBlocks count (rest.behind length)
        pure (⟨head, some payload⟩ :: others)

theorem gives_watchFront {v : View} (wide : headWidth ≤ v.bytes.length) :
    (watchFront v).Gives (readHead v.bytes, payloadLength v.bytes) v.stop := by
  have width : (v.taken headWidth).bytes.length = 56 := by
    rw [View.taken, List.length_take, Nat.min_eq_left wide, headWidth]
  rw [← readHead_take (Nat.le_refl _), ← payloadLength_take (Nat.le_refl _), readHead,
    payloadLength]
  refine (View.gives_front wide).bind (Watched.Gives.mono ?_ (v.stop_taken_le headWidth))
  exact (View.gives_field (by simp only [width]; omega)).bind <|
    (View.gives_field (by simp only [width]; omega)).bind <|
    (View.gives_field (by simp only [width]; omega)).bind <|
    (View.gives_field (by simp only [width]; omega)).bind <| gives_pure _ _

theorem gives_watchBlocks (count : Nat) (v : View) :
    ∃ found, (watchBlocks count v).Gives found v.stop ∧
      found.map BlockView.block = blocks count v.bytes ∧
      ∀ b ∈ found, ∀ w ∈ b.payload, w.stop ≤ v.stop := by
  induction count generalizing v with
  | zero => exact ⟨[], gives_pure _ _, rfl, by simp⟩
  | succ count ih =>
    simp only [watchBlocks, blocks]
    by_cases cut : v.bytes.length < headWidth
    · rw [if_pos cut, if_pos cut]
      exact ⟨[], gives_pure _ _, rfl, by simp⟩
    rw [if_neg cut, if_neg cut]
    have front := gives_watchFront (Nat.le_of_not_lt cut)
    generalize rest_eq : v.behind headWidth = rest
    have drop_eq : v.bytes.drop headWidth = rest.bytes := by
      rw [← rest_eq]
      rfl
    have rest_stop : rest.stop = v.stop := by rw [← rest_eq, View.stop_behind]
    rw [drop_eq]
    by_cases torn : rest.bytes.length < payloadLength v.bytes
    · refine ⟨[⟨readHead v.bytes, none⟩], front.bind ?_, (if_pos torn).symm, by simp⟩
      simp only [if_pos torn]
      exact gives_pure _ _
    · obtain ⟨others, watched, same, inside⟩ := ih (rest.behind (payloadLength v.bytes))
      have payload := View.gives_front (Nat.le_of_not_lt torn)
      rw [View.stop_behind, rest_stop] at watched inside
      rw [rest_stop] at payload
      refine ⟨⟨readHead v.bytes, some (rest.taken (payloadLength v.bytes))⟩ :: others,
        front.bind ?_, ?_, ?_⟩
      · simp only [if_neg torn]
        exact payload.bind (watched.bind (gives_pure _ _))
      · rw [if_neg torn, List.map_cons, same]
        rfl
      · intro b mem w found
        rcases List.mem_cons.1 mem with rfl | mem
        · cases found
          exact rest_stop ▸ rest.stop_taken_le _
        · exact inside b mem w found

/-- A payload is shorter than the bytes that it stands in. -/
theorem length_lt_of_mem_watchBlocks {count width : Nat} {v w : View} {b : BlockView}
    (mem : b ∈ (watchBlocks count (v.behind width)).value) (held : w ∈ b.payload) :
    w.bytes.length < v.bytes.length := by
  obtain ⟨found, watched, same, -⟩ := gives_watchBlocks count (v.behind width)
  rw [watched.value] at mem
  have block : ⟨b.head, some w.bytes⟩ ∈ blocks count (v.bytes.drop width) := by
    have mem := List.mem_map_of_mem (f := BlockView.block) mem
    rw [same, BlockView.block, Option.mem_def.1 held] at mem
    exact mem
  have shorter := length_payload_le block
  rw [headWidth, List.length_drop] at shorter
  omega

/-! Rule sets. -/

/-- The conjunction and the count of rules. -/
def watchHeader (v : View) : Watched (Except DecodeFault (Conjunction × Nat)) :=
  match require v.bytes leastHeaderWidth .ruleSetHeader with
  | .error fault => pure (.error fault)
  | .ok _ => do
    let count ← v.field 8 4
    let conjunction ← v.field 12 4
    let header := (Conjunction.ofCode (.ofNat conjunction), count)
    if count = 0 then pure (.ok header)
    else pure ((require v.bytes headerWidth .ruleSetHeader).map fun _ => header)

theorem gives_watchHeader (v : View) :
    (watchHeader v).Gives
      ((checkHeader v.bytes).map fun _ => (readConjunction v.bytes, readCount v.bytes)) v.stop := by
  rw [watchHeader]
  cases least : require v.bytes leastHeaderWidth .ruleSetHeader with
  | error fault =>
    rw [checkHeader, least]
    exact gives_pure _ _
  | ok _ =>
    have width : 16 ≤ v.bytes.length := require_eq_ok_iff.1 least
    refine (View.gives_field (by omega)).bind <| (View.gives_field (by omega)).bind ?_
    change Watched.Gives (if readCount v.bytes = 0 then _ else _) _ _
    by_cases none : readCount v.bytes = 0
    · rw [checkHeader_eq_ok_iff.2 ⟨width, .inl none⟩, if_pos none]
      exact gives_pure _ _
    · have rest : checkHeader v.bytes = require v.bytes headerWidth .ruleSetHeader := by
        rw [checkHeader, least]
        exact if_pos none
      rw [rest, if_neg none]
      exact gives_pure _ _

/-- The rule of a block, by a reader of nested rule sets. -/
def BlockView.watchRule (nested : View → Watched (Except DecodeFault RuleSet)) (b : BlockView) :
    Watched Rule :=
  match b.payload with
  | none => pure (.unknown b.head)
  | some payload =>
    if b.head.field.valueKind = .rules then do
      match ← nested payload with
      | .ok set => pure (.group set.conjunction set.rules)
      | .error _ => pure (.unknown b.head)
    else do
      match ← watchLeaf b.head payload with
      | .ok rule => pure rule
      | .error _ => pure (.unknown b.head)

theorem BlockView.gives_watchRule {nested : View → Watched (Except DecodeFault RuleSet)}
    {read : List UInt8 → Except DecodeFault RuleSet} {b : BlockView} {stop : Nat}
    (inside : ∀ w ∈ b.payload, w.stop ≤ stop)
    (same : ∀ w ∈ b.payload, (nested w).Gives (read w.bytes) w.stop) :
    (b.watchRule nested).Gives (b.block.rule read) stop := by
  obtain ⟨head, payload⟩ := b
  cases payload with
  | none => exact gives_pure _ _
  | some w =>
    have inner := (same w rfl).mono (inside w rfl)
    have leaf := (gives_watchLeaf head w).mono (inside w rfl)
    change Watched.Gives _ ((⟨head, some w.bytes⟩ : Block).rule read) stop
    by_cases rules : head.field.valueKind = .rules
    · simp only [watchRule, Block.rule, if_pos rules]
      refine inner.bind ?_
      cases read w.bytes <;> exact gives_pure _ _
    · simp only [watchRule, Block.rule, if_neg rules]
      refine leaf.bind ?_
      cases decodeLeaf head w.bytes <;> exact gives_pure _ _

def watchCriteria (v : View) : Watched (Except DecodeFault RuleSet) := do
  match ← watchHeader v with
  | .error fault => pure (.error fault)
  | .ok (conjunction, count) =>
    let found := watchBlocks count (v.behind headerWidth)
    let _ ← found
    let rules ← Watched.each (found.value.attach.map fun
      | ⟨⟨head, none⟩, _⟩ => pure (.unknown head)
      | ⟨⟨head, some w⟩, _⟩ => BlockView.watchRule (fun _ => watchCriteria w) ⟨head, some w⟩)
    pure (.ok ⟨conjunction, rules⟩)
termination_by v.bytes.length
decreasing_by exact length_lt_of_mem_watchBlocks (by assumption) rfl

/-- What follows a header: the blocks, and the rules of the blocks. -/
def watchRules (conjunction : Conjunction) (found : Watched (List BlockView))
    (rules : List (Watched Rule)) : Watched (Except DecodeFault RuleSet) := do
  let _ ← found
  let rules ← Watched.each rules
  pure (.ok ⟨conjunction, rules⟩)

theorem watchCriteria_eq (v : View) :
    watchCriteria v = watchHeader v >>= fun
      | .error fault => pure (.error fault)
      | .ok (conjunction, count) =>
        let found := watchBlocks count (v.behind headerWidth)
        watchRules conjunction found (found.value.map (BlockView.watchRule watchCriteria)) := by
  rw [watchCriteria]
  congr 1
  funext header
  rcases header with fault | ⟨conjunction, count⟩
  · rfl
  refine congrArg (watchRules conjunction (watchBlocks count (v.behind headerWidth))) ?_
  rw [← List.attach_map_val (f := BlockView.watchRule watchCriteria)]
  apply List.map_congr_left
  rintro ⟨⟨head, payload⟩, _⟩ _
  cases payload <;> rfl

/-- What is read is what is read without a watch, and nothing outside the bytes is looked at. -/
theorem gives_watchCriteria (v : View) :
    (watchCriteria v).Gives (decodeCriteria v.bytes) v.stop := by
  rw [watchCriteria_eq, decodeCriteria_eq]
  refine (gives_watchHeader v).bind ?_
  cases header : checkHeader v.bytes with
  | error fault => exact gives_pure _ _
  | ok _ =>
    obtain ⟨found, watched, same, inside⟩ :=
      gives_watchBlocks (readCount v.bytes) (v.behind headerWidth)
    rw [View.stop_behind] at watched inside
    have rules : (Watched.each (found.map (BlockView.watchRule watchCriteria))).Gives
        (found.map fun b => b.block.rule decodeCriteria) v.stop :=
      Watched.gives_each fun b mem =>
        b.gives_watchRule (inside b mem) fun w held => gives_watchCriteria w
    have blocks_eq : (readBlocks v.bytes).map (Block.rule decodeCriteria) =
        found.map fun b => b.block.rule decodeCriteria := by
      have same : found.map BlockView.block = readBlocks v.bytes := same
      rw [← same, List.map_map]
      rfl
    change (watchRules (readConjunction v.bytes) _
      ((watchBlocks (readCount v.bytes) (v.behind headerWidth)).value.map _)).Gives
        (.ok ⟨readConjunction v.bytes, (readBlocks v.bytes).map _⟩) v.stop
    rw [watched.value, blocks_eq]
    exact watched.bind (rules.bind (gives_pure _ _))
termination_by v.bytes.length
decreasing_by exact length_lt_of_mem_watchBlocks (watched.value.symm ▸ mem) held

end MusicLibrary.Smart
