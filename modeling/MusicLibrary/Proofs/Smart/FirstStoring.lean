import MusicLibrary.Proofs.Query.Meaning
import MusicLibrary.Proofs.Smart.Settling

/-! The first storing of a smart playlist, whose rules need not be ones that a record can hold. If
every leaf has the kind of values that its attribute has, each rule that is written is read as a
rule of its kind. What is read takes no more bytes, and it settles at once but for dates that are
written with two zeros at their end. -/

namespace MusicLibrary.Smart

/-! Dates. -/

/-- What the slots hold of dates. -/
def writtenDates (times : List Timestamp) : List UInt32 :=
  (times.take 3).map fun t => (secondsOfTime t).toUInt64.toUInt32

theorem Slots.values_ofValues_take {values : List Int64} (used : values ≠ []) :
    (ofValues values).values = (values.take 3).map fun n => n.toUInt64.toUInt32 := by
  match values with
  | [] => exact absurd rfl used
  | [a] | [a, b] => rfl
  | a :: b :: c :: rest =>
    have flags : (ofValues (a :: b :: c :: rest)).flagOrUnit = 1 ∧
        (ofValues (a :: b :: c :: rest)).thirdFlag = 1 := by
      simp [ofValues]
    rw [Slots.values, if_neg (by rw [flags.1]; decide), if_neg (by rw [flags.2]; decide)]
    rfl

theorem getLast?_dropLastZero_iff (values : List UInt32) :
    (dropLastZero values).getLast? = some 0 ↔ [0, 0] <:+ values := by
  rw [dropLastZero]
  split
  · rename_i last
    obtain ⟨front, rfl⟩ := List.getLast?_eq_some_iff.1 last
    rw [List.dropLast_concat, List.getLast?_eq_some_iff]
    constructor
    · rintro ⟨others, rfl⟩
      exact ⟨others, by simp⟩
    · rintro ⟨others, same⟩
      have joined : (others ++ [0]) ++ [0] = front ++ [0] := by
        rw [← same, List.append_assoc]
        rfl
      exact ⟨others, (List.append_cancel_right joined).symm⟩
  · rename_i other
    refine iff_of_false other ?_
    rintro ⟨others, rfl⟩
    exact other (by simp)

theorem saturatingMul_zero (n : Int64) : saturatingMul 0 n = 0 :=
  saturatingMul_eq (Int.zero_mul _)

/-- Dates behind a code that is read as "within" are read as an offset in whole seconds: they have
no offset if they were written for another comparison. -/
theorem decodeDates_encodeDates_zero {operator : Operator} (other : operator ≠ .within)
    (first : Timestamp) (times : List Timestamp) :
    decodeDates .within (encodeDates operator first times) = [⟨0⟩] := by
  rw [decodeDates, if_pos rfl, encodeDates, if_neg other]
  simp only [Slots.ofValues, saturatingMul_zero]

theorem keepsAll_decodeDates (head : Head) {operator : Operator}
    (recoded : head.operator = .ofCode operator.code) {times : List Timestamp} (first : Timestamp)
    (used : times ≠ []) :
    (head.with (decodeDates head.operator (encodeDates operator first times))).keepsAll =
      (Operator.ofCode operator.code = .within || !decide ([0, 0] <:+ writtenDates times)) := by
  rw [← recoded]
  by_cases within : head.operator = .within
  · rw [decide_eq_true within, Bool.true_or]
    by_cases same : operator = .within
    · have whole := keepsAll_within head within [first]
      rw [within] at whole ⊢
      rwa [same, decodeDates_encodeDates_within]
    · rw [within, decodeDates_encodeDates_zero same]
      refine (if_pos within).trans ?_
      rfl
  · have points : operator ≠ .within := by
      rintro rfl
      exact within recoded
    have values : (Slots.ofValues (times.map secondsOfTime)).values = writtenDates times := by
      rw [Slots.values_ofValues_take (by simpa using used), ← List.map_take, List.map_map]
      rfl
    rw [decide_eq_false within, Bool.false_or, decodeDates, if_neg within, encodeDates,
      if_neg points, values, Bool.eq_iff_iff, keepsAll_times_iff within, ne_eq,
      getLast?_dropLastZero_iff]
    simp

/-! Rules. -/

mutual

/-- Whether what is read of a rule settles at once: its dates are not written with two zeros at
their end, where only the last one would be left out, unless they are read as an offset. -/
def Rule.settlesAtOnce : Rule → Bool
  | .group _ rules => Rule.settleAtOnce rules
  | .date c =>
    Operator.ofCode c.operator.code = .within || !decide ([0, 0] <:+ writtenDates c.value)
  | _ => true
termination_by structural rule => rule

def Rule.settleAtOnce : List Rule → Bool
  | [] => true
  | rule :: rest => rule.settlesAtOnce && Rule.settleAtOnce rest
termination_by structural rules => rules

end

theorem Rule.settleAtOnce_eq (rules : List Rule) :
    Rule.settleAtOnce rules = rules.all Rule.settlesAtOnce := by
  induction rules with
  | nil => rfl
  | cons rule rest ih => rw [Rule.settleAtOnce, ih, List.all_cons]

def RuleSet.settlesAtOnce (set : RuleSet) : Bool := set.rules.all Rule.settlesAtOnce

theorem ruleOfBlock_encodeBlock (head : Head) (nested : Bool) (payload : List UInt8) :
    ruleOfBlock (encodeBlock head nested payload) =
      Block.rule decodeCriteria ⟨recoded head, some payload⟩ := by
  have front := readHead_encodeBlock head nested payload []
  have rest := drop_encodeBlock head nested payload []
  rw [List.append_nil, List.append_nil] at rest
  rw [List.append_nil] at front
  rw [ruleOfBlock, Block.ofBytes, front, rest]

/-- A rule that is written is read as one that settles at once as the rule does, and that takes no
more bytes. -/
def Rule.IsReread (rule : Rule) : Prop :=
  ∀ block, rule.encode? = some block → block.length < 4294967296 →
    (ruleOfBlock block).settlesIn 0 = rule.settlesAtOnce ∧ (ruleOfBlock block).width ≤ block.length

/-- A leaf is read with the head that its codes are read as. -/
theorem Rule.IsReread.leaf {V : Type} {c : Condition V} {rule : Rule} {kind : ValueKind}
    {payload : List UInt8} (result : Head → Rule) (field : c.field.valueKind = kind)
    (known : kind ≠ .unknown) (single : kind ≠ .rules)
    (write : rule.encode? = some (encodeBlock c.bare false payload))
    (read : ∀ head : Head, head.field.valueKind = kind →
      decodeLeaf head payload = .ok (result head))
    (settles : (result (recoded c.bare)).settlesIn 0 = rule.settlesAtOnce)
    (width : ∀ head, (result head).width ≤ headWidth + payload.length) : rule.IsReread := by
  intro block same _
  cases write.symm.trans same
  have kept : (recoded c.bare).field.valueKind = kind := by
    rw [← field]
    exact congrArg Field.valueKind (Field.ofCode_code (field.symm ▸ known))
  have back : ruleOfBlock (encodeBlock c.bare false payload) = result (recoded c.bare) := by
    rw [ruleOfBlock_encodeBlock, Block.rule]
    simp only [kept, if_neg single, read _ kept]
  rw [back, length_encodeBlock]
  exact ⟨settles, width _⟩

theorem Rule.width_flag (c : Condition (Option Bool)) :
    (Rule.flag c).width = headWidth + if c.value = none then 0 else Slots.width := by
  refine (length_encodeBlock _ _ _).trans ?_
  cases c.value with
  | none => rfl
  | some flag => exact congrArg _ (Slots.length_encode _)

open Rule (IsReread)

theorem isReread_text {c : Condition (List String)} (field : c.field.valueKind = .text) :
    IsReread (.text c) := by
  obtain ⟨tested, sign, operator, values⟩ := c
  cases values with
  | nil =>
    refine .leaf (fun head => .text (head.with [])) field (by decide) (by decide) rfl
      (fun head kind => ?_) rfl fun _ => Nat.le_of_eq (length_encodeBlock _ _ _)
    simp only [decodeLeaf, kind]
    rfl
  | cons s rest =>
    refine .leaf
      (fun head => .text (head.with (if (Text.Utf16.encode s).isEmpty then [] else [s])))
      field (by decide) (by decide) rfl (fun head kind => ?_) rfl fun head => ?_
    · simp only [decodeLeaf, kind, Option.map_some, List.head?_cons, Option.getD_some,
        Text.Utf16.decode_encode]
      rfl
    · refine Nat.le_trans (Nat.le_of_eq (length_encodeBlock _ _ _)) (Nat.add_le_add_left ?_ _)
      by_cases empty : Text.Utf16.encode s = [] <;> simp [Head.with, empty]

theorem isReread_integer {c : Condition (List Int64)} (field : c.field.valueKind = .integer) :
    IsReread (.integer c) := by
  obtain ⟨tested, sign, operator, values⟩ := c
  cases values with
  | nil =>
    refine .leaf (fun head => .integer (head.with [])) field (by decide) (by decide) rfl
      (fun head kind => ?_) rfl fun _ => Nat.le_of_eq (length_encodeBlock _ _ _)
    simp only [decodeLeaf, kind]
    rfl
  | cons n rest =>
    refine .leaf (fun head => .integer (head.with
      ((Slots.ofValues (n :: rest)).values.map fun n => n.toUInt64.toInt64)))
      field (by decide) (by decide) rfl (fun head kind => ?_) rfl fun head => ?_
    · simp [decodeLeaf, kind, bind, Except.bind, pure, Except.pure]
    · refine Nat.le_trans (Nat.le_of_eq (length_encodeBlock _ _ _)) (Nat.add_le_add_left ?_ _)
      split <;> simp

theorem isReread_flag {c : Condition (Option Bool)}
    (field : c.field.valueKind = .flag ∨ c.field.valueKind = .love) : IsReread (.flag c) := by
  obtain ⟨tested, sign, operator, value⟩ := c
  cases value with
  | none =>
    rcases field with field | field <;>
    · refine .leaf (fun head => .flag (head.with none)) field (by decide) (by decide) rfl
        (fun head kind => ?_) rfl fun head => Nat.le_of_eq (Rule.width_flag _)
      simp only [decodeLeaf, kind]
      rfl
  | some flag =>
    have width (head : Head) (value : Option Bool) :
        (Rule.flag (head.with value)).width ≤
          headWidth + (flagSlots tested flag).encode.length := by
      rw [Rule.width_flag, Slots.length_encode]
      split <;> omega
    rcases field with field | field
    · refine .leaf (fun head => .flag (head.with (some ((flagSlots tested flag).first != 0))))
        field (by decide) (by decide) rfl (fun head kind => ?_) rfl fun head => width head _
      simp [decodeLeaf, kind, bind, Except.bind, pure, Except.pure]
    · refine .leaf (fun head => .flag (head.with
        (if (flagSlots tested flag).first = lovedCode then some true
          else if (flagSlots tested flag).first = dislikedCode then some false else none)))
        field (by decide) (by decide) rfl (fun head kind => ?_) rfl fun head => width head _
      simp [decodeLeaf, kind, bind, Except.bind, pure, Except.pure]

theorem isReread_date {c : Condition (List Timestamp)} (field : c.field.valueKind = .date) :
    IsReread (.date c) := by
  obtain ⟨tested, sign, operator, times⟩ := c
  cases times with
  | nil =>
    refine .leaf (fun head => .date (head.with [])) field (by decide) (by decide) rfl
      (fun head kind => ?_) ?_ fun _ => ?_
    · simp only [decodeLeaf, kind]
      rfl
    · simp [Rule.settlesIn, Rule.settlesAtOnce, keepsAll_nil, writtenDates]
    · exact Nat.le_of_eq (Rule.width_date _)
  | cons t rest =>
    refine .leaf (fun head => .date (head.with (decodeDates head.operator
      (encodeDates operator t (t :: rest))))) field (by decide) (by decide) rfl
      (fun head kind => ?_) ?_ fun head => ?_
    · simp [decodeLeaf, kind, bind, Except.bind, pure, Except.pure]
    · have kept := keepsAll_decodeDates (recoded ⟨tested, sign, operator, ()⟩) rfl t
        (List.cons_ne_nil t rest)
      rw [Rule.settlesIn, Rule.settlesAtOnce, ← kept]
      exact Bool.or_false _
    · rw [Rule.width_date]
      split <;> simp

theorem isReread_mediaKind {c : Condition (Option MediaKind)}
    (field : c.field.valueKind = .mediaKind) : IsReread (.mediaKind c) := by
  obtain ⟨tested, sign, operator, value⟩ := c
  cases value with
  | none =>
    refine .leaf (fun head => .mediaKind (head.with none)) field (by decide) (by decide) rfl
      (fun head kind => ?_) rfl fun _ => Nat.le_of_eq (length_encodeBlock _ _ _)
    simp only [decodeLeaf, kind]
    rfl
  | some mediaKind =>
    refine .leaf (fun head => .mediaKind (head.with (some mediaKind))) field (by decide)
      (by decide) rfl (fun head kind => ?_) rfl fun _ => Nat.le_of_eq (length_encodeBlock _ _ _)
    simp [decodeLeaf, kind, Slots.single, bind, Except.bind, pure, Except.pure]

theorem isReread_playlist {c : Condition (Option PersistentId)}
    (field : c.field.valueKind = .playlist) : IsReread (.playlist c) := by
  obtain ⟨tested, sign, operator, value⟩ := c
  cases value with
  | none =>
    refine .leaf (fun head => .playlist (head.with none)) field (by decide) (by decide) rfl
      (fun head kind => ?_) rfl fun _ => Nat.le_of_eq (length_encodeBlock _ _ _)
    simp only [decodeLeaf, kind]
    rfl
  | some id =>
    have used : Bytes.bigEndian 8 id.value.toNat ≠ [] := by
      rw [← List.length_pos_iff, Bytes.length_bigEndian]
      decide
    have back : UInt64.ofNat (Bytes.fieldAt (Bytes.bigEndian 8 id.value.toNat) 0 8) = id.value := by
      simpa using Bytes.ofNat_fieldAt_eight id.value []
    refine .leaf (fun head => .playlist (head.with (some id))) field
      (by decide) (by decide) rfl (fun head kind => ?_) rfl
      fun _ => Nat.le_of_eq (length_encodeBlock _ _ _)
    simp [decodeLeaf, kind, used, back, require, bind, Except.bind, pure, Except.pure]

/-! Rule sets. -/

theorem isBlock_encodeBlock {payload : List UInt8} (short : payload.length < 4294967296)
    (head : Head) (nested : Bool) : IsBlock (encodeBlock head nested payload) := by
  have length := payloadLength_encodeBlock head nested payload []
  rw [List.append_nil, fit32_eq short] at length
  rw [IsBlock, length_encodeBlock, length]

/-- A record that is written is read as what its blocks are read as. -/
theorem decodeCriteria_encodeCriteria_blocks {set : RuleSet}
    (short : (encodeCriteria set).length < 4294967296) :
    decodeCriteria (encodeCriteria set) =
      .ok ⟨set.conjunction, (encodeRules set.rules).map ruleOfBlock⟩ := by
  obtain ⟨count, parts⟩ := encodeRules_fit short
  have long : headerWidth ≤ (encodeCriteria set).length := by
    rw [length_encodeCriteria]
    exact Nat.le_add_right _ _
  have each : ∀ record ∈ encodeRules set.rules, IsBlock record := by
    intro record mem
    rw [encodeRules_eq] at mem
    obtain ⟨rule, inside, write⟩ := List.mem_filterMap.1 mem
    have whole := parts rule inside record write
    obtain ⟨head, nested, payload, rfl⟩ := rule.exists_encodeBlock write
    rw [length_encodeBlock] at whole
    exact isBlock_encodeBlock (Nat.lt_of_le_of_lt (Nat.le_add_left _ _) whole) head nested
  have found := blocks_flatten each []
  rw [List.append_nil] at found
  rw [decodeCriteria_of_long long, readBlocks, encodeCriteria, readConjunction_encodeRuleSet,
    readCount_encodeRuleSet, fit32_eq count, drop_encodeRuleSet, found, List.map_map]
  rfl

/-- Rules that are reread one by one are reread together. -/
theorem isReread_rules {rules : List Rule} (each : ∀ rule ∈ rules, rule.IsReread)
    (parts : ∀ rule ∈ rules, ∀ block, rule.encode? = some block → block.length < 4294967296) :
    ((encodeRules rules).map ruleOfBlock).all (Rule.settlesIn 0) = rules.all Rule.settlesAtOnce ∧
      (((encodeRules rules).map ruleOfBlock).map Rule.width).sum ≤ (rules.map Rule.width).sum := by
  induction rules with
  | nil => exact ⟨rfl, Nat.le_refl _⟩
  | cons rule rest ih =>
    obtain ⟨settles, width⟩ := ih (fun next mem => each next (List.mem_cons_of_mem rule mem))
      fun next mem => parts next (List.mem_cons_of_mem rule mem)
    rw [encodeRules, List.all_cons, List.map_cons, List.sum_cons]
    cases write : rule.encode? with
    | none =>
      have left : rule.settlesAtOnce = true := by
        cases rule <;> first | rfl | cases write
      rw [left, Bool.true_and]
      exact ⟨settles, Nat.le_trans width (Nat.le_add_left _ _)⟩
    | some block =>
      obtain ⟨first, short⟩ := each rule List.mem_cons_self block write
        (parts rule List.mem_cons_self block write)
      have own : rule.width = block.length := by rw [Rule.width, write, Option.getD_some]
      rw [List.map_cons, List.all_cons, List.map_cons, List.sum_cons, first, settles, own]
      exact ⟨rfl, Nat.add_le_add short width⟩

/-- Every rule whose leaves have the kinds of values that their attributes have is reread. -/
theorem isReread_of_isWellKinded {rule : Rule} (kinds : rule.isWellKinded = true) :
    rule.IsReread := by
  induction rule using Rule.induct with
  | group conjunction rules ih =>
    rw [Rule.isWellKinded, Rule.areWellKinded_eq, List.all_eq_true] at kinds
    intro block write small
    cases write
    have short : (encodeCriteria ⟨conjunction, rules⟩).length < 4294967296 := by
      rw [length_encodeBlock] at small
      exact Nat.lt_of_le_of_lt (Nat.le_add_left _ _) small
    obtain ⟨settles, width⟩ := isReread_rules (fun rule mem => ih rule mem (kinds rule mem))
      (encodeRules_fit short).2
    have back : ruleOfBlock (encodeBlock ⟨.ruleset, .pos, .is, ()⟩ true
        (encodeRuleSet conjunction (encodeRules rules))) =
          .group conjunction ((encodeRules rules).map ruleOfBlock) := by
      have read := decodeCriteria_encodeCriteria_blocks short
      have same : recoded ⟨.ruleset, .pos, .is, ()⟩ = ⟨.ruleset, .pos, .is, ()⟩ := by decide
      have nested : Field.ruleset.valueKind = .rules := rfl
      rw [encodeCriteria] at read
      rw [ruleOfBlock_encodeBlock, same, Block.rule]
      simp only [if_pos nested, read]
    rw [back, Rule.width_group, Rule.settlesIn, Rule.settleIn_eq, Rule.settlesAtOnce,
      Rule.settleAtOnce_eq, length_encodeBlock, length_encodeRuleSet, length_flatten_encodeRules]
    exact ⟨settles, by omega⟩
  | text c => exact isReread_text (of_decide_eq_true kinds)
  | integer c => exact isReread_integer (of_decide_eq_true kinds)
  | flag c => exact isReread_flag (by simpa [Rule.isWellKinded] using kinds)
  | date c => exact isReread_date (of_decide_eq_true kinds)
  | mediaKind c => exact isReread_mediaKind (of_decide_eq_true kinds)
  | playlist c => exact isReread_playlist (of_decide_eq_true kinds)
  | unknown c =>
    intro block write
    cases write

/-! Whole smart playlists. -/

variable {smart once : Smart}

theorem ruleset_of_ofBytes_toBytes (fits : (encodeCriteria smart.ruleset).length < 4294967296)
    (h : ofBytes smart.toBytes = .ok once) :
    once.ruleset =
      ⟨smart.ruleset.conjunction, (encodeRules smart.ruleset.rules).map ruleOfBlock⟩ := by
  rw [ofBytes_toBytes, fit32_eq fits, List.take_length] at h
  have read := decodeCriteria_of_decodeRecords h
  rw [decodeCriteria_encodeCriteria_blocks fits] at read
  exact (Except.ok.inj read).symm

/-- Where leaves have the kinds of values that their attributes have, what is stored comes back as
it is the second time, exactly if no dates are written with two zeros at their end. -/
theorem ofBytes_toBytes_once_iff (kinds : smart.ruleset.isWellKinded = true)
    (fits : (encodeCriteria smart.ruleset).length < 4294967296)
    (h : ofBytes smart.toBytes = .ok once) :
    ofBytes once.toBytes = .ok once ↔ smart.ruleset.settlesAtOnce = true := by
  have each : ∀ rule ∈ smart.ruleset.rules, rule.IsReread := fun rule mem =>
    isReread_of_isWellKinded (List.all_eq_true.1 kinds rule mem)
  obtain ⟨settles, width⟩ := isReread_rules each (encodeRules_fit fits).2
  rw [ofBytes_toBytes_eq_self_iff h, length_encodeCriteria, ruleset_of_ofBytes_toBytes fits h,
    RuleSet.settlesIn, settles]
  rw [length_encodeCriteria] at fits
  exact and_iff_right (Nat.lt_of_le_of_lt (Nat.add_le_add_left width _) fits)

end MusicLibrary.Smart
