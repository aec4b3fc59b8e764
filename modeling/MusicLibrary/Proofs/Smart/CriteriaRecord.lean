import MusicLibrary.Proofs.Smart.Representable
import MusicLibrary.Proofs.Text.Utf16

/-! The criteria record read back. Every rule stands in a block behind a head that tells where it
ends, and a nested rule set is a record of its own within its block. -/

namespace MusicLibrary.Smart

/-! Blocks. -/

/-- The head that is read from the codes of a head. -/
def recoded (head : Head) : Head where
  field := .ofCode head.field.code
  sign := .ofCode head.sign.code
  operator := .ofCode head.operator.code
  value := ()

theorem readHead_encodeBlock (head : Head) (nested : Bool) (payload rest : List UInt8) :
    readHead (encodeBlock head nested payload ++ rest) = recoded head := by
  have sign : UInt8.ofNat head.sign.code.toNat = head.sign.code := UInt8.ofNat_toNat
  simp [readHead, recoded, encodeBlock, Bytes.fieldAt_append_right, List.append_assoc, sign]

theorem payloadLength_encodeBlock (head : Head) (nested : Bool) (payload rest : List UInt8) :
    payloadLength (encodeBlock head nested payload ++ rest) = fit32 payload.length := by
  have length := Bytes.fieldAt_bigEndian_append 4 (fit32_lt payload.length) (payload ++ rest)
  simpa [payloadLength, encodeBlock, Bytes.fieldAt_append_right, List.append_assoc] using length

theorem drop_encodeBlock (head : Head) (nested : Bool) (payload rest : List UInt8) :
    (encodeBlock head nested payload ++ rest).drop headWidth = payload ++ rest := by
  simp [encodeBlock, headWidth, List.drop_append, List.drop_eq_nil_of_le, List.append_assoc]

theorem length_encodeBlock (head : Head) (nested : Bool) (payload : List UInt8) :
    (encodeBlock head nested payload).length = headWidth + payload.length := by
  simp [encodeBlock, headWidth]
  omega

theorem blocks_encodeBlock {payload : List UInt8} (short : payload.length < 4294967296)
    (head : Head) (nested : Bool) (count : Nat) (rest : List UInt8) :
    blocks (count + 1) (encodeBlock head nested payload ++ rest) =
      ⟨recoded head, some payload⟩ :: blocks count rest := by
  simp only [blocks, payloadLength_encodeBlock, fit32_eq short, drop_encodeBlock,
    readHead_encodeBlock]
  rw [if_neg, if_neg, List.take_left, List.drop_left]
  · rw [List.length_append]
    omega
  · rw [List.length_append, length_encodeBlock]
    omega

/-! Rule sets. -/

/-- What is read of a rule once it is written: the rule that its block is read as, or nothing if it
is left out. -/
def Rule.ReadAs (rule : Rule) : Option Rule → Prop
  | none => rule.encode? = none
  | some result => ∃ head nested payload, rule.encode? = some (encodeBlock head nested payload) ∧
    payload.length < 4294967296 ∧ recoded head = head ∧
    Block.rule decodeCriteria ⟨head, some payload⟩ = result

/-- The rule is written as a block, and the block is read as the rule. -/
def Rule.Returns (rule : Rule) : Prop := rule.ReadAs (some rule)

theorem length_encodeRules {rules : List Rule} (all : ∀ rule ∈ rules, rule.Returns) :
    (encodeRules rules).length = rules.length := by
  induction rules with
  | nil => rfl
  | cons rule rest ih =>
    obtain ⟨head, nested, payload, write, _⟩ := all rule List.mem_cons_self
    rw [encodeRules, write]
    have tail := ih fun next mem => all next (List.mem_cons_of_mem rule mem)
    rw [List.length_cons, List.length_cons, tail]

theorem map_blocks_encodeRules {read : Rule → Option Rule} {rules : List Rule}
    (all : ∀ rule ∈ rules, rule.ReadAs (read rule)) :
    (blocks (encodeRules rules).length (encodeRules rules).flatten).map
      (Block.rule decodeCriteria) = rules.filterMap read := by
  induction rules with
  | nil => rfl
  | cons rule rest ih =>
    have first := all rule List.mem_cons_self
    have tail := ih fun next mem => all next (List.mem_cons_of_mem rule mem)
    rw [encodeRules, List.filterMap_cons]
    cases result : read rule with
    | none =>
      rw [result] at first
      rw [first]
      exact tail
    | some result' =>
      rw [result] at first
      obtain ⟨head, nested, payload, write, short, same, block⟩ := first
      rw [write]
      change (blocks ((encodeRules rest).length + 1) (encodeBlock head nested payload ++
        (encodeRules rest).flatten)).map _ = result' :: rest.filterMap read
      rw [blocks_encodeBlock short, same, List.map_cons, block, tail]

theorem length_encodeRuleSet (conjunction : Conjunction) (rules : List (List UInt8)) :
    (encodeRuleSet conjunction rules).length = headerWidth + rules.flatten.length := by
  simp [encodeRuleSet, signature, headerWidth]
  omega

theorem readCount_encodeRuleSet (conjunction : Conjunction) (rules : List (List UInt8)) :
    readCount (encodeRuleSet conjunction rules) = fit32 rules.length := by
  have count := Bytes.fieldAt_bigEndian_append 4 (fit32_lt rules.length)
    (Bytes.bigEndian 4 conjunction.code.toNat ++ (Bytes.zeros 120 ++ rules.flatten))
  simpa [readCount, encodeRuleSet, signature, Bytes.fieldAt_append_right, List.append_assoc]
    using count

theorem readConjunction_encodeRuleSet (conjunction : Conjunction) (rules : List (List UInt8)) :
    readConjunction (encodeRuleSet conjunction rules) = conjunction := by
  have code : Conjunction.ofCode conjunction.code = conjunction := by
    cases conjunction <;> decide
  simp [readConjunction, encodeRuleSet, signature, Bytes.fieldAt_append_right, List.append_assoc,
    code]

theorem drop_encodeRuleSet (conjunction : Conjunction) (rules : List (List UInt8)) :
    (encodeRuleSet conjunction rules).drop headerWidth = rules.flatten := by
  simp [encodeRuleSet, signature, headerWidth, List.drop_append, List.drop_eq_nil_of_le,
    List.append_assoc]

theorem checkHeader_of_long {bytes : List UInt8} (long : headerWidth ≤ bytes.length) :
    checkHeader bytes = .ok () := by
  have least : require bytes leastHeaderWidth .ruleSetHeader = .ok () := by
    refine require_eq_ok_iff.2 (Nat.le_trans ?_ long)
    decide
  rw [checkHeader, least, require_eq_ok_iff.2 long]
  simp [bind, Except.bind, pure, Except.pure]

/-- A rule set that is written is read as what is read of its rules. -/
theorem decodeCriteria_of_readAs {read : Rule → Option Rule} {set : RuleSet}
    (all : ∀ rule ∈ set.rules, rule.ReadAs (read rule))
    (count : (encodeRules set.rules).length < 4294967296) :
    decodeCriteria (encodeCriteria set) = .ok ⟨set.conjunction, set.rules.filterMap read⟩ := by
  have long : headerWidth ≤ (encodeCriteria set).length := by
    rw [encodeCriteria, length_encodeRuleSet]
    omega
  rw [decodeCriteria_eq, checkHeader_of_long long, readBlocks]
  unfold encodeCriteria
  rw [readConjunction_encodeRuleSet, readCount_encodeRuleSet, fit32_eq count, drop_encodeRuleSet,
    map_blocks_encodeRules all]
  rfl

theorem decodeCriteria_encodeCriteria {set : RuleSet} (all : ∀ rule ∈ set.rules, rule.Returns)
    (count : set.rules.length < 4294967296) : decodeCriteria (encodeCriteria set) = .ok set := by
  rw [← length_encodeRules all] at count
  rw [decodeCriteria_of_readAs all count, List.filterMap_some]

/-! Records that are cut off. A block that is not whole is read as an unknown rule or not at all, so
no byte behind the header can be missing. -/

theorem length_blocks_le (count : Nat) (bytes : List UInt8) :
    (blocks count bytes).length ≤ count := by
  induction count generalizing bytes with
  | zero => exact Nat.le_refl 0
  | succ count ih =>
    rw [blocks]
    split
    · exact Nat.zero_le _
    split
    · exact Nat.succ_le_succ (Nat.zero_le count)
    · exact Nat.succ_le_succ (ih _)

theorem le_of_blocks_take {records : List (List UInt8)}
    (each : ∀ record ∈ records, ∃ head nested payload, record = encodeBlock head nested payload)
    {k : Nat} (small : k < 4294967296)
    (count : (blocks records.length (records.flatten.take k)).length = records.length)
    (whole : ∀ block ∈ blocks records.length (records.flatten.take k), block.payload ≠ none) :
    records.flatten.length ≤ k := by
  induction records generalizing k with
  | nil => exact Nat.zero_le k
  | cons record rest ih =>
    obtain ⟨head, nested, payload, rfl⟩ := each record List.mem_cons_self
    rw [List.flatten_cons, List.length_cons] at count whole
    rw [List.flatten_cons, List.length_append, length_encodeBlock]
    by_cases cut : ((encodeBlock head nested payload ++ rest.flatten).take k).length < headWidth
    · rw [blocks, if_pos cut] at count
      cases count
    have above : headWidth ≤ k := by
      rw [List.length_take] at cut
      omega
    have length : payloadLength ((encodeBlock head nested payload ++ rest.flatten).take k) =
        fit32 payload.length := by
      rw [payloadLength, Bytes.fieldAt_take above]
      exact payloadLength_encodeBlock head nested payload rest.flatten
    have body : ((encodeBlock head nested payload ++ rest.flatten).take k).drop headWidth =
        (payload ++ rest.flatten).take (k - headWidth) := by
      rw [List.drop_take, drop_encodeBlock]
    simp only [blocks, if_neg cut, length, body] at count whole
    by_cases cut' : ((payload ++ rest.flatten).take (k - headWidth)).length < fit32 payload.length
    · rw [if_pos cut'] at whole
      exact absurd rfl (whole _ List.mem_cons_self)
    rw [if_neg cut'] at count whole
    -- Had the payload been too long for its length, what is read for the length would not fit.
    have room : fit32 payload.length ≤ k - headWidth := by
      rw [List.length_take] at cut'
      omega
    have head : 0 < headWidth := by decide
    have fits : fit32 payload.length = payload.length := by
      unfold fit32 at room ⊢
      omega
    rw [fits] at room
    rw [fits, List.drop_take, List.drop_left] at count whole
    have shorter := ih (fun next mem => each next (List.mem_cons_of_mem _ mem)) (by omega)
      (Nat.succ.inj count) fun block mem => whole block (List.mem_cons_of_mem _ mem)
    omega

theorem Rule.exists_encodeBlock {rule : Rule} {record : List UInt8}
    (h : rule.encode? = some record) :
    ∃ head nested payload, record = encodeBlock head nested payload := by
  cases rule <;> first
    | (cases h; exact ⟨_, _, _, rfl⟩)
    | cases h

theorem le_of_decodeCriteria_take {set result : RuleSet}
    (known : ∀ rule ∈ result.rules, rule.encode? ≠ none)
    (count : result.rules.length = (encodeRules set.rules).length) {k : Nat}
    (header : headerWidth ≤ k) (small : k < 4294967296)
    (h : decodeCriteria ((encodeCriteria set).take k) = .ok result) :
    (encodeCriteria set).length ≤ k := by
  have long : headerWidth ≤ ((encodeCriteria set).take k).length := by
    rw [List.length_take, encodeCriteria, length_encodeRuleSet]
    omega
  have number : readCount ((encodeCriteria set).take k) = fit32 (encodeRules set.rules).length := by
    rw [readCount, Bytes.fieldAt_take (Nat.le_trans (by decide) header)]
    exact readCount_encodeRuleSet set.conjunction (encodeRules set.rules)
  have body : ((encodeCriteria set).take k).drop headerWidth =
      (encodeRules set.rules).flatten.take (k - headerWidth) := by
    rw [List.drop_take, encodeCriteria, drop_encodeRuleSet]
  rw [decodeCriteria_eq, checkHeader_of_long long] at h
  have read := congrArg RuleSet.rules (Except.ok.inj h)
  change (readBlocks ((encodeCriteria set).take k)).map (Block.rule decodeCriteria) = result.rules
    at read
  rw [readBlocks, number, body] at read
  have found := congrArg List.length read
  rw [List.length_map, count] at found
  have all : fit32 (encodeRules set.rules).length = (encodeRules set.rules).length :=
    Nat.le_antisymm (fit32_le _) (Nat.le_trans (Nat.le_of_eq found.symm) (length_blocks_le _ _))
  rw [all] at read found
  have shorter := le_of_blocks_take (k := k - headerWidth) (fun record mem => ?_) (by omega)
    found fun block mem cut => ?_
  · rw [encodeCriteria, length_encodeRuleSet]
    omega
  · rw [encodeRules_eq] at mem
    obtain ⟨rule, _, write⟩ := List.mem_filterMap.1 mem
    exact rule.exists_encodeBlock write
  · have inside := List.mem_map_of_mem (f := Block.rule decodeCriteria) mem
    rw [read] at inside
    refine known _ inside ?_
    rw [Block.rule, cut]
    rfl

/-! Rules without rules in them. -/

namespace Rule

theorem ReadAs.leaf {V : Type} {c : Condition V} {kinds : List ValueKind} {rule result : Rule}
    {payload : List UInt8} (head : c.HasHead kinds) (known : .unknown ∉ kinds)
    (bare : .rules ∉ kinds) (write : rule.encode? = some (encodeBlock c.bare false payload))
    (short : payload.length < 4294967296) (read : decodeLeaf c.bare payload = .ok result) :
    rule.ReadAs (some result) := by
  have kind := head.kind
  have named : c.field.valueKind ≠ .unknown := by
    intro same
    exact known (same ▸ kind)
  have leaf : c.bare.field.valueKind ≠ .rules := by
    intro same
    exact bare (same ▸ kind)
  refine ⟨c.bare, false, payload, write, short, ?_, ?_⟩
  · rw [recoded, Condition.bare, Field.ofCode_code named, Sign.ofCode_code head.sign,
      Operator.ofCode_code head.operator]
  · simp only [Block.rule, if_neg leaf, read]

theorem ReadAs.empty {V : Type} {c : Condition V} {kinds : List ValueKind} {rule result : Rule}
    (head : c.HasHead kinds) (known : .unknown ∉ kinds) (bare : .rules ∉ kinds)
    (write : rule.encode? = some (encodeBlock c.bare false []))
    (read : decodeLeaf c.bare [] = .ok result) : rule.ReadAs (some result) :=
  .leaf head known bare write (by decide) read

theorem ReadAs.slots {V : Type} {c : Condition V} {kinds : List ValueKind} {rule result : Rule}
    (slots : Slots) (head : c.HasHead kinds) (known : .unknown ∉ kinds) (bare : .rules ∉ kinds)
    (write : rule.encode? = some (encodeBlock c.bare false slots.encode))
    (read : decodeLeaf c.bare slots.encode = .ok result) : rule.ReadAs (some result) := by
  refine .leaf head known bare write ?_ read
  rw [Slots.length_encode]
  decide

theorem returns_text {c : Condition (List String)} (head : c.HasHead [.text])
    (value : c.value = [] ∨
      ∃ s, c.value = [s] ∧ s ≠ "" ∧ (Text.Utf16.encode s).length < 4294967296) :
    Returns (.text c) := by
  obtain ⟨field, sign, operator, values⟩ := c
  have kind : field.valueKind = .text := List.mem_singleton.1 head.kind
  rcases value with rfl | ⟨s, rfl, used, short⟩
  · refine ReadAs.empty head (by decide) (by decide) rfl ?_
    simp only [decodeLeaf, Condition.bare, kind]
    rfl
  · refine ReadAs.leaf head (by decide) (by decide) rfl short ?_
    have payload := Text.Utf16.encode_ne_nil used
    simp only [decodeLeaf, Condition.bare, kind]
    simp [payload, Head.with, pure, Except.pure]

theorem returns_integer {c : Condition (List Int64)} (head : c.HasHead [.integer])
    (few : c.value.length ≤ 3) (range : ∀ n ∈ c.value, 0 ≤ n.toInt ∧ n.toInt < 4294967296) :
    Returns (.integer c) := by
  obtain ⟨field, sign, operator, values⟩ := c
  have kind : field.valueKind = .integer := List.mem_singleton.1 head.kind
  cases values with
  | nil =>
    refine ReadAs.empty head (by decide) (by decide) rfl ?_
    simp only [decodeLeaf, Condition.bare, kind]
    rfl
  | cons n rest =>
    refine ReadAs.slots (.ofValues (n :: rest)) head (by decide) (by decide) rfl ?_
    have back := Slots.widen_values_ofValues (List.cons_ne_nil n rest) few range
    simp [decodeLeaf, Condition.bare, kind, back, Head.with, bind, Except.bind, pure, Except.pure]

theorem returns_flag {c : Condition (Option Bool)} (head : c.HasHead [.flag, .love]) :
    Returns (.flag c) := by
  obtain ⟨field, sign, operator, value⟩ := c
  have kind : field.valueKind = .flag ∨ field.valueKind = .love := by simpa using head.kind
  cases value with
  | none =>
    refine ReadAs.empty head (by decide) (by decide) rfl ?_
    rcases kind with kind | kind <;> simp only [decodeLeaf, Condition.bare, kind] <;> rfl
  | some flag =>
    refine ReadAs.slots (flagSlots field flag) head (by decide) (by decide) rfl ?_
    rcases kind with kind | kind
    · have other : field ≠ .loved := by
        rintro rfl
        cases kind
      cases flag <;> simp [decodeLeaf, Condition.bare, kind, flagSlots, other, Slots.single,
        Head.with, bind, Except.bind, pure, Except.pure]
    · have loved : field = .loved := by
        cases field <;> first | rfl | cases kind
      subst loved
      cases flag <;> simp [decodeLeaf, Condition.bare, kind, flagSlots, Slots.single, lovedCode,
        dislikedCode, Head.with, bind, Except.bind, pure, Except.pure]

theorem readAs_offset {c : Condition (List Timestamp)} (head : c.HasHead [.date])
    (within : c.operator = .within) (value : c.value = [] ∨ ∃ t, c.value = [t]) :
    ReadAs (.date c) (some (.date (c.bare.with (storedDates c.operator c.value)))) := by
  obtain ⟨field, sign, operator, values⟩ := c
  have kind : field.valueKind = .date := List.mem_singleton.1 head.kind
  cases within
  rcases value with rfl | ⟨t, rfl⟩
  · refine ReadAs.empty head (by decide) (by decide) rfl ?_
    simp only [decodeLeaf, Condition.bare, kind]
    rfl
  · refine ReadAs.slots (encodeDates .within t [t]) head (by decide) (by decide) rfl ?_
    have back := decodeDates_encodeDates_within t [t]
    simp [decodeLeaf, Condition.bare, kind, back, Head.with, bind, Except.bind, pure, Except.pure]

theorem readAs_dates {c : Condition (List Timestamp)} (head : c.HasHead [.date])
    (points : c.operator ≠ .within) (few : c.value.length ≤ 3)
    (range : ∀ t ∈ c.value, InRecord t) :
    ReadAs (.date c) (some (.date (c.bare.with (storedDates c.operator c.value)))) := by
  obtain ⟨field, sign, operator, values⟩ := c
  have kind : field.valueKind = .date := List.mem_singleton.1 head.kind
  cases values with
  | nil =>
    refine ReadAs.empty head (by decide) (by decide) rfl ?_
    have none : storedDates operator [] = [] := by simp [storedDates]
    simp only [decodeLeaf, Condition.bare, kind, none]
    rfl
  | cons t rest =>
    refine ReadAs.slots (encodeDates operator t (t :: rest)) head (by decide) (by decide) rfl ?_
    have back := decodeDates_encodeDates points (List.cons_ne_nil t rest) few range t
    simp [decodeLeaf, Condition.bare, kind, back, Head.with, bind, Except.bind, pure, Except.pure]

theorem returns_date {c : Condition (List Timestamp)}
    (read : ReadAs (.date c) (some (.date (c.bare.with (storedDates c.operator c.value)))))
    (kept : storedDates c.operator c.value = c.value) : Returns (.date c) := by
  rw [kept] at read
  exact read

theorem returns_mediaKind {c : Condition (Option MediaKind)} (head : c.HasHead [.mediaKind]) :
    Returns (.mediaKind c) := by
  obtain ⟨field, sign, operator, value⟩ := c
  have kind : field.valueKind = .mediaKind := List.mem_singleton.1 head.kind
  cases value with
  | none =>
    refine ReadAs.empty head (by decide) (by decide) rfl ?_
    simp only [decodeLeaf, Condition.bare, kind]
    rfl
  | some mediaKind =>
    refine ReadAs.slots (.single mediaKind.bits) head (by decide) (by decide) rfl ?_
    simp [decodeLeaf, Condition.bare, kind, Slots.single, Head.with, bind, Except.bind, pure,
      Except.pure]

theorem returns_playlist {c : Condition (Option PersistentId)} (head : c.HasHead [.playlist]) :
    Returns (.playlist c) := by
  obtain ⟨field, sign, operator, value⟩ := c
  have kind : field.valueKind = .playlist := List.mem_singleton.1 head.kind
  cases value with
  | none =>
    refine ReadAs.empty head (by decide) (by decide) rfl ?_
    simp only [decodeLeaf, Condition.bare, kind]
    rfl
  | some id =>
    have payload : Bytes.bigEndian 8 id.value.toNat ≠ [] := by
      intro empty
      have length := Bytes.length_bigEndian 8 id.value.toNat
      rw [empty] at length
      cases length
    have back : UInt64.ofNat (Bytes.fieldAt (Bytes.bigEndian 8 id.value.toNat) 0 8) = id.value := by
      simpa using Bytes.ofNat_fieldAt_eight id.value []
    refine ReadAs.leaf head (by decide) (by decide) rfl (by simp) ?_
    simp [decodeLeaf, Condition.bare, kind, payload, back, require, Head.with, bind, Except.bind,
      pure, Except.pure]

theorem returns_group {conjunction : Conjunction} {rules : List Rule}
    (all : ∀ rule ∈ rules, rule.Returns) (count : rules.length < 4294967296)
    (fits : (encodeCriteria ⟨conjunction, rules⟩).length < 4294967296) :
    Returns (.group conjunction rules) := by
  refine ⟨⟨.ruleset, .pos, .is, ()⟩, true, encodeCriteria ⟨conjunction, rules⟩, rfl, fits,
    by decide, ?_⟩
  have nested : Field.ruleset.valueKind = .rules := rfl
  simp only [Block.rule, if_pos nested]
  rw [decodeCriteria_encodeCriteria all count]

/-- Every rule that the record can hold comes back from its block, at whatever depth it stands. -/
theorem Representable.returns {rule : Rule} (h : rule.Representable) : rule.Returns := by
  induction h with
  | group _ count fits all => exact returns_group all count fits
  | text head value => exact returns_text head value
  | integer head few range => exact returns_integer head few range
  | flag head => exact returns_flag head
  | offset head within value =>
    refine returns_date (readAs_offset head within (value.imp id fun ⟨t, same, _⟩ => ⟨t, same⟩)) ?_
    rw [within]
    refine storedDates_within ?_
    rcases value with none | ⟨t, same, whole⟩
    · simp [none]
    · simpa [same] using whole
  | dates head points few range later =>
    exact returns_date (readAs_dates head points few range) (storedDates_points points later)
  | mediaKind head => exact returns_mediaKind head
  | playlist head => exact returns_playlist head

end Rule

end MusicLibrary.Smart
