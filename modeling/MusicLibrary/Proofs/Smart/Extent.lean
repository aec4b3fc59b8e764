import MusicLibrary.Proofs.Smart.JsonForm
import MusicLibrary.Proofs.Smart.Watched

/-! How much can come out of a criteria record. Each rule stands behind a head of its own and each
rule set behind a header, so that rules and their nesting are paid for in bytes, whatever counts and
lengths the record claims. -/

namespace MusicLibrary.Smart

mutual

/-- How many rules a rule is, the rules in it included. -/
def Rule.count : Rule → Nat
  | .group _ rules => 1 + countRules rules
  | _ => 1
termination_by structural rule => rule

def countRules : List Rule → Nat
  | [] => 0
  | rule :: rest => rule.count + countRules rest
termination_by structural rules => rules

end

/-! Widths. A head takes 56 bytes, and a nested rule set not less than 16 behind it. -/

/-- A rule that a head and a payload of the width can pay for. -/
structure Rule.IsPaid (rule : Rule) (width : Nat) : Prop where
  count : 56 * rule.count ≤ 56 + width
  height : 192 * rule.height ≤ 176 + width

/-- A rule set that a record of the width can pay for. -/
structure RuleSet.IsPaid (set : RuleSet) (width : Nat) : Prop where
  count : 56 * countRules set.rules ≤ width - 136
  height : 192 * heightOfRules set.rules ≤ width - 16

theorem Rule.isPaid_unknown (head : Head) (width : Nat) : (Rule.unknown head).IsPaid width :=
  ⟨Nat.le_add_right _ _, Nat.zero_le _⟩

theorem Rule.isPaid_group {set : RuleSet} {width : Nat} (least : 16 ≤ width)
    (paid : set.IsPaid width) : (Rule.group set.conjunction set.rules).IsPaid width := by
  obtain ⟨count, height⟩ := paid
  constructor
  · rw [Rule.count]
    omega
  · rw [Rule.height]
    omega

theorem isPaid_of_decodeLeaf {head : Head} {payload : List UInt8} {rule : Rule}
    (h : decodeLeaf head payload = .ok rule) (width : Nat) : rule.IsPaid width := by
  cases rule with
  | group conjunction rules => exact absurd rfl (ne_group_of_decodeLeaf h conjunction rules)
  | _ => exact ⟨Nat.le_add_right _ _, Nat.zero_le _⟩

def Block.width (block : Block) : Nat := (block.payload.map List.length).getD 0

/-- Blocks stand one behind the other, so that together they pay for their rules. -/
theorem isPaid_blocks {rule : Block → Rule} (count : Nat) (bytes : List UInt8)
    (paid : ∀ block ∈ blocks count bytes, (rule block).IsPaid block.width) :
    56 * countRules ((blocks count bytes).map rule) ≤ bytes.length ∧
      192 * heightOfRules ((blocks count bytes).map rule) ≤ 120 + bytes.length := by
  induction count generalizing bytes with
  | zero => exact ⟨Nat.zero_le _, Nat.zero_le _⟩
  | succ count ih =>
    rw [blocks] at paid ⊢
    by_cases cut : bytes.length < headWidth
    · rw [if_pos cut]
      exact ⟨Nat.zero_le _, Nat.zero_le _⟩
    rw [if_neg cut] at paid ⊢
    have wide : 56 ≤ bytes.length := Nat.le_of_not_lt cut
    have behind : (bytes.drop headWidth).length = bytes.length - 56 := List.length_drop
    by_cases torn : (bytes.drop headWidth).length < payloadLength bytes
    · rw [if_pos torn] at paid ⊢
      obtain ⟨single, nested⟩ := paid _ List.mem_cons_self
      simp only [List.map_cons, List.map_nil, countRules, heightOfRules]
      simp only [Block.width, Option.map_none, Option.getD_none] at single nested
      omega
    · rw [if_neg torn] at paid ⊢
      obtain ⟨single, nested⟩ := paid _ List.mem_cons_self
      obtain ⟨rest, depth⟩ := ih _ fun block mem => paid block (List.mem_cons_of_mem _ mem)
      simp only [List.map_cons, countRules, heightOfRules]
      simp only [Block.width, Option.map_some, Option.getD_some, List.length_take] at single nested
      rw [List.length_drop] at rest depth
      omega

theorem isPaid_of_decodeCriteria {bytes : List UInt8} {set : RuleSet}
    (h : decodeCriteria bytes = .ok set) : set.IsPaid bytes.length := by
  obtain ⟨-, rfl⟩ := of_decodeCriteria h
  have paid : ∀ block ∈ readBlocks bytes, (block.rule decodeCriteria).IsPaid block.width := by
    rintro ⟨head, payload⟩ mem
    cases payload with
    | none => exact Rule.isPaid_unknown head _
    | some payload =>
      have shorter : payload.length < bytes.length := length_payload_lt mem
      simp only [Block.rule]
      by_cases rules : head.field.valueKind = .rules
      · rw [if_pos rules]
        cases nested : decodeCriteria payload with
        | error fault => exact Rule.isPaid_unknown head _
        | ok set =>
          have least : leastHeaderWidth ≤ payload.length :=
            (checkHeader_eq_ok_iff.1 (of_decodeCriteria nested).1).1
          exact Rule.isPaid_group least (isPaid_of_decodeCriteria nested)
      · rw [if_neg rules]
        cases leaf : decodeLeaf head payload with
        | error fault => exact Rule.isPaid_unknown head _
        | ok rule => exact isPaid_of_decodeLeaf leaf _
  obtain ⟨count, height⟩ := isPaid_blocks (readCount bytes) (bytes.drop headerWidth) paid
  have width : (bytes.drop headerWidth).length = bytes.length - 136 := List.length_drop
  rw [width] at count height
  refine ⟨count, ?_⟩
  change 192 * heightOfRules ((blocks (readCount bytes) _).map _) ≤ _
  omega
termination_by bytes.length

/-- Reading is bounded by the bytes. Whatever counts and lengths they claim, no slice outside them
is looked at; and of what is read, each rule at any depth has 56 bytes of its own behind the first
136, and each nesting of rule sets takes 192 bytes. -/
theorem bounded_by_bytes (bytes : List UInt8) :
    (watchCriteria ⟨0, bytes⟩).value = decodeCriteria bytes ∧
      (∀ span ∈ (watchCriteria ⟨0, bytes⟩).spans, span.start + span.width ≤ bytes.length) ∧
      ∀ set, decodeCriteria bytes = .ok set →
        countRules set.rules ≤ (bytes.length - 136) / 56 ∧
          heightOfRules set.rules ≤ bytes.length / 192 := by
  have watched := gives_watchCriteria ⟨0, bytes⟩
  rw [View.stop, Nat.zero_add] at watched
  refine ⟨watched.value, watched.inside, fun set read => ?_⟩
  obtain ⟨count, height⟩ := isPaid_of_decodeCriteria read
  constructor
  · rw [Nat.le_div_iff_mul_le (by decide)]
    omega
  · rw [Nat.le_div_iff_mul_le (by decide)]
    omega

/-- A record that claims as many rules as its header can hold, and has one: a group, which claims
two, and has one. -/
def hollow : List UInt8 :=
  signature ++ Bytes.bigEndian 4 4294967295 ++ Bytes.bigEndian 4 1 ++ Bytes.zeros 120 ++
    encodeBlock ⟨.ruleset, .pos, .is, ()⟩ true
      (signature ++ Bytes.bigEndian 4 2 ++ Bytes.bigEndian 4 0 ++ Bytes.zeros 120 ++
        encodeBlock ⟨.genre, .strPos, .is, ()⟩ false [])

theorem bounded_by_bytes_hollow :
    decodeCriteria hollow = .ok ⟨.or, [.group .and [.text ⟨.genre, .strPos, .is, []⟩]]⟩ ∧
      hollow.length = 384 ∧ countRules [.group .and [.text ⟨.genre, .strPos, .is, []⟩]] ≤ 4 ∧
      heightOfRules [.group .and [.text ⟨.genre, .strPos, .is, []⟩]] ≤ 2 := by
  have read : decodeCriteria hollow =
      .ok ⟨.or, [.group .and [.text ⟨.genre, .strPos, .is, []⟩]]⟩ := by decide +kernel
  have width : hollow.length = 384 := by decide +kernel
  obtain ⟨count, height⟩ := (bounded_by_bytes hollow).2.2 _ read
  rw [width] at count height
  exact ⟨read, width, count, height⟩

end MusicLibrary.Smart
