import MusicLibrary.Proofs.Smart.Representable
import MusicLibrary.Proofs.Text.Utf16

/-! What is read from the records of a smart playlist. Whatever bytes are read, the rules hold only
values that a payload has room for, and codes that have a name stand under that name. -/

namespace MusicLibrary.Smart

/-! Codes. -/

/-- A code is read as its name if it has one. -/
theorem canonical_find? {α κ : Type} [BEq κ] [LawfulBEq κ] {named : List α} {code : α → κ}
    {other : κ → α} (distinct : ∀ a b, other a = other b → a = b)
    (unnamed : ∀ x ∈ named, ∀ c, x ≠ other c) (c : κ) :
    Canonical named code other ((named.find? fun x => code x == c).getD (other c)) := by
  intro c' same
  cases found : named.find? fun x => code x == c with
  | some x =>
    rw [found, Option.getD_some] at same
    exact absurd same (unnamed x (List.mem_of_find?_eq_some found) c')
  | none =>
    rw [found, Option.getD_none] at same
    rw [List.mem_map]
    rintro ⟨x, mem, named⟩
    have differs := List.find?_eq_none.1 found x mem
    rw [named, ← distinct c c' same] at differs
    exact differs (beq_self_eq_true c)

theorem Sign.canonical_ofCode (c : UInt8) : Canonical named code other (ofCode c) :=
  canonical_find? (fun _ _ => other.inj) (by simp [named]) c

theorem Operator.canonical_ofCode (c : UInt16) : Canonical named code other (ofCode c) :=
  canonical_find? (fun _ _ => other.inj) (by simp [named]) c

theorem LimitField.canonical_ofCode (c : UInt32) : Canonical named code other (ofCode c) :=
  canonical_find? (fun _ _ => other.inj) (by simp [named]) c

/-! Rules. -/

/-- A rule that is read from a record. -/
inductive Rule.Readable : Rule → Prop
  | group {conjunction rules} (all : ∀ rule ∈ rules, Readable rule) :
    Readable (.group conjunction rules)
  | text {c} (head : c.HasHead [.text]) (value : c.value = [] ∨ ∃ s, c.value = [s] ∧ s ≠ "") :
    Readable (.text c)
  | integer {c} (head : c.HasHead [.integer]) (few : c.value.length ≤ 3)
    (range : ∀ n ∈ c.value, 0 ≤ n.toInt ∧ n.toInt < 4294967296) : Readable (.integer c)
  | flag {c} (head : c.HasHead [.flag, .love]) : Readable (.flag c)
  | offset {c} (head : c.HasHead [.date]) (within : c.operator = .within)
    (value : c.value = [] ∨ ∃ t, c.value = [t]) : Readable (.date c)
  | dates {c} (head : c.HasHead [.date]) (points : c.operator ≠ .within) (few : c.value.length ≤ 3)
    (range : ∀ t ∈ c.value, InRecord t) : Readable (.date c)
  | mediaKind {c} (head : c.HasHead [.mediaKind]) : Readable (.mediaKind c)
  | playlist {c} (head : c.HasHead [.playlist]) : Readable (.playlist c)
  | unknown {c} : Readable (.unknown c)

namespace Slots

theorem length_values_le (slots : Slots) : slots.values.length ≤ 3 := by
  unfold values
  split
  · simp
  · split <;> simp

end Slots

theorem length_dropLastZero_le (values : List UInt32) :
    (dropLastZero values).length ≤ values.length := by
  unfold dropLastZero
  split
  · simp
  · exact Nat.le_refl _

theorem toInt_timeOfSeconds (n : UInt32) :
    (timeOfSeconds n).ms.toInt = (n.toNat - 2082844800) * 1000 := by
  have small := n.toNat_lt
  have seconds : (n.toUInt64.toInt64 - dateEpoch).toInt = n.toNat - 2082844800 := by
    rw [Int64.toInt_sub, toInt_widen, toInt_dateEpoch, Int.bmod_eq_of_le (by omega) (by omega)]
  rw [timeOfSeconds, Timestamp.ofUnixSeconds, saturatingMul, seconds, toInt_thousand, clamp64,
    if_neg (by omega), if_neg (by omega)]
  exact Int64.toInt_ofInt_of_le (by omega) (by omega)

/-- Every count of seconds that is read is a time that a record can hold. -/
theorem inRecord_timeOfSeconds (n : UInt32) : InRecord (timeOfSeconds n) := by
  have small := n.toNat_lt
  rw [InRecord, toInt_timeOfSeconds, start1904_eq]
  omega

theorem readable_decodeDates {head : Head} (named : head.HasHead [.date]) (slots : Slots) :
    Rule.Readable (.date (head.with (decodeDates head.operator slots))) := by
  have named' : (head.with (decodeDates head.operator slots)).HasHead [.date] :=
    ⟨named.kind, named.sign, named.operator⟩
  by_cases within : head.operator = .within
  · refine .offset named' within (.inr ?_)
    rw [Head.with, decodeDates, if_pos within]
    exact ⟨_, rfl⟩
  · refine .dates named' within ?_ ?_
    · rw [Head.with, decodeDates, if_neg within, List.length_map]
      exact Nat.le_trans (length_dropLastZero_le _) slots.length_values_le
    · rw [Head.with, decodeDates, if_neg within]
      intro t mem
      obtain ⟨n, -, rfl⟩ := List.mem_map.1 mem
      exact inRecord_timeOfSeconds n

/-- Reading slots either fails or says what the slots say. -/
theorem of_decode_slots {payload : List UInt8} {f : Slots → Rule} {rule : Rule}
    (h : (do let slots ← Slots.decode payload; return f slots) = .ok rule) :
    ∃ slots, rule = f slots := by
  obtain ⟨slots, -, same⟩ := bind_eq_ok h
  exact ⟨slots, (Except.ok.inj same).symm⟩

theorem of_decode_payload {payload : List UInt8} {bare : Rule} {f : Slots → Rule} {rule : Rule}
    (h : (if payload.isEmpty = true then Except.ok bare
      else do let slots ← Slots.decode payload; return f slots) = .ok rule) :
    rule = bare ∨ ∃ slots, rule = f slots := by
  split at h
  · exact .inl (Except.ok.inj h).symm
  · exact .inr (of_decode_slots h)

theorem readable_decodeLeaf {head : Head} {payload : List UInt8} {rule : Rule}
    (sign : Canonical Sign.named Sign.code Sign.other head.sign)
    (operator : Canonical Operator.named Operator.code Operator.other head.operator)
    (h : decodeLeaf head payload = .ok rule) : rule.Readable := by
  have named {V : Type} {kinds : List ValueKind} (value : V)
      (kind : head.field.valueKind ∈ kinds) : (head.with value).HasHead kinds :=
    ⟨kind, sign, operator⟩
  -- A payload is read by the kind of values of the field, so that the kind is known in each case.
  cases kind : head.field.valueKind <;> simp only [decodeLeaf, kind] at h
  case rules | sealed =>
    cases h
    exact .unknown
  case unknown => cases h
  case text =>
    cases h
    refine .text (named _ (by simp [kind])) ?_
    by_cases empty : payload = []
    · exact .inl (by simp [Head.with, empty])
    · exact .inr ⟨Text.Utf16.decode payload, by simp [Head.with, empty],
        Text.Utf16.decode_ne_empty empty⟩
  case integer =>
    obtain rfl | ⟨slots, rfl⟩ := of_decode_payload h
    · exact .integer (named _ (by simp [kind])) (by simp [Head.with]) (by simp [Head.with])
    · refine .integer (named _ (by simp [kind])) ?_ ?_
      · simpa [Head.with] using slots.length_values_le
      · intro n mem
        obtain ⟨word, -, rfl⟩ := List.mem_map.1 mem
        have small := word.toNat_lt
        rw [toInt_widen]
        omega
  case flag =>
    split at h
    · cases h
      exact .flag (named _ (by simp [kind]))
    · split at h
      · cases h
        exact .flag (named _ (by simp [kind]))
      · obtain ⟨slots, rfl⟩ := of_decode_slots h
        exact .flag (named _ (by simp [kind]))
  case love =>
    obtain rfl | ⟨slots, rfl⟩ := of_decode_payload h <;> exact .flag (named _ (by simp [kind]))
  case date =>
    obtain rfl | ⟨slots, rfl⟩ := of_decode_payload h
    · by_cases within : head.operator = .within
      · exact .offset (named _ (by simp [kind])) within (.inl rfl)
      · exact .dates (named _ (by simp [kind])) within (by simp [Head.with]) (by simp [Head.with])
    · exact readable_decodeDates ⟨by simp [kind], sign, operator⟩ slots
  case mediaKind =>
    obtain rfl | ⟨slots, rfl⟩ := of_decode_payload h <;>
      exact .mediaKind (named _ (by simp [kind]))
  case playlist =>
    split at h
    · cases h
      exact .playlist (named _ (by simp [kind]))
    · cases long : require payload 8 .playlistPayload <;> rw [long] at h <;> cases h
      exact .playlist (named _ (by simp [kind]))

/-! Blocks. -/

theorem head_of_mem_blocks {count : Nat} {bytes : List UInt8} {block : Block}
    (h : block ∈ blocks count bytes) : ∃ start, block.head = readHead start := by
  induction count generalizing bytes with
  | zero => cases h
  | succ count ih =>
    simp only [blocks] at h
    split at h
    · cases h
    · split at h
      · exact ⟨bytes, by rw [List.mem_singleton.1 h]⟩
      · rcases List.mem_cons.1 h with rfl | mem
        · exact ⟨bytes, rfl⟩
        · exact ih mem

theorem of_decodeCriteria {bytes : List UInt8} {set : RuleSet}
    (h : decodeCriteria bytes = .ok set) :
    checkHeader bytes = .ok () ∧
      set = ⟨readConjunction bytes, (readBlocks bytes).map (Block.rule decodeCriteria)⟩ := by
  rw [decodeCriteria_eq] at h
  cases header : checkHeader bytes with
  | error fault =>
    rw [header] at h
    cases h
  | ok _ =>
    rw [header] at h
    cases h
    exact ⟨rfl, rfl⟩

/-- What holds of every rule that a payload can be read as, and of unknown rules, and of every group
whose rules it holds of, holds of all rules of a record, at whatever depth they stand. -/
theorem decodeCriteria_induct {P : Rule → Prop} (unknown : ∀ head, P (.unknown head))
    (group : ∀ conjunction rules, (∀ rule ∈ rules, P rule) → P (.group conjunction rules))
    (leaf : ∀ start payload rule, decodeLeaf (readHead start) payload = .ok rule → P rule)
    {bytes : List UInt8} {set : RuleSet} (h : decodeCriteria bytes = .ok set) :
    ∀ rule ∈ set.rules, P rule := by
  obtain ⟨-, rfl⟩ := of_decodeCriteria h
  intro rule mem
  obtain ⟨⟨head, payload⟩, inside, rfl⟩ := List.mem_map.1 mem
  cases payload with
  | none => exact unknown head
  | some payload =>
    have shorter := length_payload_lt inside
    obtain ⟨start, same⟩ := head_of_mem_blocks inside
    obtain rfl : head = readHead start := same
    simp only [Block.rule]
    split
    · split
      · rename_i nested read
        exact group _ _ (decodeCriteria_induct unknown group leaf read)
      · exact unknown _
    · split
      · rename_i rule read
        exact leaf _ _ _ read
      · exact unknown _
termination_by bytes.length

/-- Every rule that is read from a criteria record is readable. -/
theorem readable_of_decodeCriteria {bytes : List UInt8} {set : RuleSet}
    (h : decodeCriteria bytes = .ok set) : ∀ rule ∈ set.rules, rule.Readable := by
  refine decodeCriteria_induct (fun _ => .unknown) (fun _ _ => .group) ?_ h
  intro start payload rule read
  exact readable_decodeLeaf (Sign.canonical_ofCode _) (Operator.canonical_ofCode _) read

end MusicLibrary.Smart
