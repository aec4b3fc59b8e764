import MusicLibrary.Proofs.Smart.InfoRecord
import MusicLibrary.Proofs.Smart.RoundTrip

/-! What the store keeps of a smart playlist that was read from records. Unknown rules are left out
at every depth, and of dates is lost what their slots cannot hold; all else comes back. -/

namespace MusicLibrary

namespace Smart

mutual

/-- What the store keeps of a rule, if anything. -/
def Rule.stored? : Rule → Option Rule
  | .group conjunction rules => some (.group conjunction (storedRules rules))
  | .date c => some (.date (c.bare.with (storedDates c.operator c.value)))
  | .unknown _ => none
  | rule => some rule
termination_by structural rule => rule

def storedRules : List Rule → List Rule
  | [] => []
  | rule :: rest =>
    match rule.stored? with
    | some stored => stored :: storedRules rest
    | none => storedRules rest
termination_by structural rules => rules

end

theorem storedRules_eq (rules : List Rule) : storedRules rules = rules.filterMap Rule.stored? := by
  induction rules with
  | nil => rfl
  | cons rule rest ih =>
    rw [storedRules, List.filterMap_cons, ih]
    cases rule.stored? <;> rfl

def Rule.isUnknown : Rule → Bool
  | .unknown _ => true
  | _ => false

theorem Rule.isNone_stored? (rule : Rule) : rule.stored?.isNone = rule.isUnknown := by
  cases rule <;> rfl

theorem Rule.isSome_encode? (rule : Rule) : rule.encode?.isSome = !rule.isUnknown := by
  cases rule <;> rfl

/-- What is kept of a rule is not left out later. -/
theorem Rule.isUnknown_of_stored? {rule stored : Rule} (h : rule.stored? = some stored) :
    stored.isUnknown = false := by
  cases rule <;> cases h <;> rfl

theorem length_storedRules (rules : List Rule) :
    (storedRules rules).length = (encodeRules rules).length := by
  rw [storedRules_eq, encodeRules_eq, List.length_filterMap_eq_countP,
    List.length_filterMap_eq_countP]
  refine congrArg (List.countP · rules) (funext fun rule => ?_)
  rw [rule.isSome_encode?, ← rule.isNone_stored?, Option.not_isNone]

def RuleSet.stored (set : RuleSet) : RuleSet := ⟨set.conjunction, storedRules set.rules⟩

end Smart

def Smart.stored (smart : Smart) : Smart := { smart with ruleset := smart.ruleset.stored }

namespace Smart

/-! Lengths. -/

theorem headWidth_le_of_encode? {rule : Rule} {block : List UInt8}
    (h : rule.encode? = some block) : headWidth ≤ block.length := by
  obtain ⟨head, nested, payload, rfl⟩ := rule.exists_encodeBlock h
  rw [length_encodeBlock]
  exact Nat.le_add_right _ _

theorem length_encodeRules_le (rules : List Rule) :
    (encodeRules rules).length ≤ (encodeRules rules).flatten.length := by
  induction rules with
  | nil => exact Nat.le_refl _
  | cons rule rest ih =>
    rw [encodeRules]
    cases write : rule.encode? with
    | none => exact ih
    | some block =>
      have head := headWidth_le_of_encode? write
      simp only [headWidth] at head
      simp only [List.length_cons, List.flatten_cons, List.length_append]
      omega

/-- Where the record of a rule set is short enough, so are the blocks in it, and their count. -/
theorem encodeRules_fit {set : RuleSet} (short : (encodeCriteria set).length < 4294967296) :
    (encodeRules set.rules).length < 4294967296 ∧
      ∀ rule ∈ set.rules, ∀ block, rule.encode? = some block → block.length < 4294967296 := by
  rw [encodeCriteria, length_encodeRuleSet] at short
  have count := length_encodeRules_le set.rules
  refine ⟨by omega, fun rule mem block write => ?_⟩
  have inside : block ∈ encodeRules set.rules := by
    rw [encodeRules_eq]
    exact List.mem_filterMap.2 ⟨rule, mem, write⟩
  have part := (List.sublist_flatten_of_mem inside).length_le
  omega

/-! Reading back. -/

namespace Rule

/-- A rule that was read, and is written and read once more, is what the store keeps of it. -/
theorem Readable.readAs {rule : Rule} (h : rule.Readable)
    (fits : ∀ block, rule.encode? = some block → block.length < 4294967296) :
    rule.ReadAs rule.stored? := by
  induction h with
  | @group conjunction rules _ ih =>
    have block := fits _ rfl
    rw [length_encodeBlock] at block
    have short : (encodeCriteria ⟨conjunction, rules⟩).length < 4294967296 :=
      Nat.lt_of_le_of_lt (Nat.le_add_left _ _) block
    obtain ⟨count, parts⟩ := encodeRules_fit short
    refine ⟨⟨.ruleset, .pos, .is, ()⟩, true, encodeCriteria ⟨conjunction, rules⟩, rfl, short,
      by decide, ?_⟩
    have nested : Field.ruleset.valueKind = .rules := rfl
    simp only [Block.rule, if_pos nested]
    rw [decodeCriteria_of_readAs (fun rule mem => ih rule mem (parts rule mem)) count,
      storedRules_eq]
  | @text c head value =>
    have block := fits _ rfl
    rw [length_encodeBlock] at block
    refine returns_text head (value.imp id ?_)
    rintro ⟨s, same, used⟩
    refine ⟨s, same, used, ?_⟩
    rw [same] at block
    exact Nat.lt_of_le_of_lt (Nat.le_add_left _ _) block
  | integer head few range => exact returns_integer head few range
  | flag head => exact returns_flag head
  | offset head within value => exact readAs_offset head within value
  | dates head points few range => exact readAs_dates head points few range
  | mediaKind head => exact returns_mediaKind head
  | playlist head => exact returns_playlist head
  | unknown => rfl

end Rule

theorem decodeCriteria_encodeCriteria_stored {set : RuleSet}
    (readable : ∀ rule ∈ set.rules, rule.Readable)
    (short : (encodeCriteria set).length < 4294967296) :
    decodeCriteria (encodeCriteria set) = .ok set.stored := by
  obtain ⟨count, parts⟩ := encodeRules_fit short
  rw [decodeCriteria_of_readAs (fun rule mem => (readable rule mem).readAs (parts rule mem)) count,
    RuleSet.stored, storedRules_eq]

/-! Whole smart playlists. -/

variable {smart : Smart}

/-- What is read from records has readable rules, and a limit that can be written again. -/
theorem readable_of_decodeRecords {info criteria : List UInt8}
    (h : decodeRecords info criteria = .ok smart) :
    (∀ rule ∈ smart.ruleset.rules, rule.Readable) ∧
      ∀ limit, smart.limit = some limit → limit.IsWhole := by
  obtain ⟨found, head, h⟩ := bind_eq_ok h
  obtain ⟨set, rules, h⟩ := bind_eq_ok h
  obtain ⟨_, -, head⟩ := bind_eq_ok head
  cases head
  cases h
  exact ⟨readable_of_decodeCriteria rules, fun limit same => isWhole_decodeLimit same⟩

theorem readable_of_decodeTexts {info criteria : String}
    (h : decodeTexts info criteria = .ok smart) :
    (∀ rule ∈ smart.ruleset.rules, rule.Readable) ∧
      ∀ limit, smart.limit = some limit → limit.IsWhole := by
  obtain ⟨_, -, h⟩ := bind_eq_ok h
  obtain ⟨_, -, h⟩ := bind_eq_ok h
  exact readable_of_decodeRecords h

/-- The store gives back what it keeps of a smart playlist that was read from records, as long as
the length of its rules fits where it is stored. -/
theorem ofBytes_toBytes_stored_iff (rules : ∀ rule ∈ smart.ruleset.rules, rule.Readable)
    (limit : ∀ limit, smart.limit = some limit → limit.IsWhole) :
    ofBytes smart.toBytes = .ok smart.stored ↔
      (encodeCriteria smart.ruleset).length < 4294967296 := by
  refine ofBytes_toBytes_iff limit (fun rule mem => ?_) (length_storedRules smart.ruleset.rules)
    (decodeCriteria_encodeCriteria_stored rules)
  change rule ∈ storedRules smart.ruleset.rules at mem
  rw [storedRules_eq] at mem
  obtain ⟨whole, _, kept⟩ := List.mem_filterMap.1 mem
  rw [← Option.isSome_iff_ne_none, rule.isSome_encode?, Rule.isUnknown_of_stored? kept]
  rfl

end Smart

end MusicLibrary
