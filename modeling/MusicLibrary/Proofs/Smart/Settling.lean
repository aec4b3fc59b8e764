import Mathlib.Algebra.Ring.Nat
import MusicLibrary.Proofs.Smart.Framing
import MusicLibrary.Proofs.Smart.StoredForm

/-! Storing what came from the store. Each storing leaves out unknown rules, the part of an offset
below a second, and the start of 1904 as the last of some dates; a date that stood in front of it is
the last one then. Main statements: which rules come back as they are, and that whatever was read
stays as it is from the third storing on. -/

namespace MusicLibrary

namespace Smart

/-! Dates. -/

/-- Whether all dates of a rule are kept: offsets have whole seconds, and other dates do not end in
the start of 1904. -/
def Condition.keepsAll (c : Condition (List Timestamp)) : Bool :=
  if c.operator = .within then c.value.all fun t => t.ms.toInt % 1000 = 0
  else !c.value.getLast?.any (·.ms.toInt = start1904)

/-- What is left of an offset has whole seconds. -/
theorem toInt_saturatingMul_whole (ms : Int64) :
    (saturatingMul (ms / 1000) 1000).toInt % 1000 = 0 := by
  have low := ms.le_toInt
  have high := ms.toInt_lt
  have seconds : (ms / 1000).toInt = ms.toInt.tdiv 1000 :=
    Int64.toInt_div_of_ne_right _ _ (by decide)
  have inside : -9223372036854775808 ≤ ms.toInt.tdiv 1000 * 1000 ∧
      ms.toInt.tdiv 1000 * 1000 ≤ 9223372036854775807 := by
    rcases Int.le_total 0 ms.toInt with positive | negative
    · rw [Int.tdiv_eq_ediv_of_nonneg positive]
      omega
    · have opposite := Int.neg_tdiv ms.toInt 1000
      rw [Int.tdiv_eq_ediv_of_nonneg (by omega)] at opposite
      omega
  rw [saturatingMul, seconds, toInt_thousand, clamp64, if_neg (by omega), if_neg (by omega),
    Int64.toInt_ofInt_of_le (by omega) (by omega)]
  exact Int.mul_emod_left _ _

theorem keepsAll_within (head : Head) (within : head.operator = .within)
    (times : List Timestamp) :
    (head.with (storedDates head.operator times)).keepsAll = true := by
  refine (if_pos within).trans (List.all_eq_true.2 fun t mem => ?_)
  rw [Head.with, storedDates, if_pos within] at mem
  obtain ⟨whole, -, rfl⟩ := List.mem_map.1 mem
  exact decide_eq_true (toInt_saturatingMul_whole whole.ms)

theorem storedDates_eq_self_iff (c : Condition (List Timestamp)) :
    storedDates c.operator c.value = c.value ↔ c.keepsAll = true := by
  by_cases within : c.operator = .within
  · constructor
    · intro kept
      have whole := keepsAll_within c.bare within c.value
      rw [show c.bare.operator = c.operator from rfl, kept] at whole
      exact whole
    · intro whole
      rw [Condition.keepsAll, if_pos within, List.all_eq_true] at whole
      rw [within]
      exact storedDates_within fun t mem => of_decide_eq_true (whole t mem)
  · rw [storedDates, if_neg within, Condition.keepsAll, if_neg within]
    cases last : c.value.getLast?.any (·.ms.toInt = start1904) with
    | false => exact iff_of_true rfl rfl
    | true =>
      refine iff_of_false (fun kept => ?_) Bool.false_ne_true
      -- There is a last time, so that the list without it is shorter.
      have length := congrArg List.length kept
      cases empty : c.value with
      | nil => simp [empty] at last
      | cons t rest => simp [empty] at length

theorem length_storedDates {c : Condition (List Timestamp)} (points : c.operator ≠ .within)
    (lost : ¬ c.keepsAll = true) :
    (storedDates c.operator c.value).length = c.value.length - 1 := by
  have last : c.value.getLast?.any (·.ms.toInt = start1904) = true := by
    simpa [Condition.keepsAll, if_neg points] using lost
  rw [storedDates, if_neg points, if_pos last, List.length_dropLast]

theorem keepsAll_nil (head : Head) : (head.with ([] : List Timestamp)).keepsAll = true := by
  simp [Condition.keepsAll, Head.with]

theorem timeOfSeconds_ms_iff (n : UInt32) : (timeOfSeconds n).ms.toInt = start1904 ↔ n = 0 := by
  rw [toInt_timeOfSeconds, start1904_eq, ← UInt32.toNat_inj]
  change _ ↔ n.toNat = 0
  omega

theorem keepsAll_times_iff {head : Head} (points : head.operator ≠ .within)
    (values : List UInt32) :
    (head.with (values.map timeOfSeconds)).keepsAll = true ↔ values.getLast? ≠ some 0 := by
  have test : (head.with (values.map timeOfSeconds)).keepsAll =
      !(values.map timeOfSeconds).getLast?.any (·.ms.toInt = start1904) := if_neg points
  rw [test, List.getLast?_map]
  cases values.getLast? with
  | none => simp
  | some n => simp [timeOfSeconds_ms_iff]

/-! Rules. -/

mutual

/-- Whether a rule stays as it is once it was stored so many times: with each storing one date may
be lost from the end of some dates, and all else is lost with the first one. -/
def Rule.settlesIn (count : Nat) : Rule → Bool
  | .group _ rules => Rule.settleIn count rules
  | .date c => c.keepsAll || 0 < count && (c.operator = .within || c.value.length ≤ count)
  | .unknown _ => 0 < count
  | _ => true
termination_by structural rule => rule

def Rule.settleIn (count : Nat) : List Rule → Bool
  | [] => true
  | rule :: rest => rule.settlesIn count && Rule.settleIn count rest
termination_by structural rules => rules

end

theorem Rule.settleIn_eq (count : Nat) (rules : List Rule) :
    Rule.settleIn count rules = rules.all (Rule.settlesIn count) := by
  induction rules with
  | nil => rfl
  | cons rule rest ih => rw [Rule.settleIn, ih, List.all_cons]

def RuleSet.settlesIn (count : Nat) (set : RuleSet) : Bool :=
  set.rules.all (Rule.settlesIn count)

theorem filterMap_eq_self_iff {α : Type} {f : α → Option α} {items : List α} :
    items.filterMap f = items ↔ ∀ item ∈ items, f item = some item := by
  induction items with
  | nil => simp
  | cons item rest ih =>
    rw [List.filterMap_cons, List.forall_mem_cons]
    cases found : f item with
    | none =>
      refine iff_of_false (fun same => ?_) (by simp)
      have shorter := List.length_filterMap_le f rest
      have longer := congrArg List.length same
      simp only [List.length_cons] at longer
      omega
    | some other => simp [ih]

theorem Rule.stored?_eq_self_iff (rule : Rule) :
    rule.stored? = some rule ↔ rule.settlesIn 0 = true := by
  induction rule using Rule.induct with
  | group conjunction rules ih =>
    rw [Rule.stored?, Rule.settlesIn, Rule.settleIn_eq, storedRules_eq, List.all_eq_true]
    simp only [Option.some.injEq, Rule.group.injEq, true_and, filterMap_eq_self_iff]
    exact forall₂_congr ih
  | date c =>
    obtain ⟨field, sign, operator, times⟩ := c
    have same := storedDates_eq_self_iff ⟨field, sign, operator, times⟩
    simpa [Rule.stored?, Rule.settlesIn, Condition.bare, Head.with] using same
  | text c | integer c | flag c | mediaKind c | playlist c => exact iff_of_true rfl rfl
  | unknown c =>
    refine iff_of_false (fun same => ?_) Bool.false_ne_true
    cases same

theorem RuleSet.stored_eq_self_iff (set : RuleSet) : set.stored = set ↔ set.settlesIn 0 = true := by
  obtain ⟨conjunction, rules⟩ := set
  simp only [RuleSet.stored, RuleSet.settlesIn, RuleSet.mk.injEq, true_and, storedRules_eq,
    filterMap_eq_self_iff, List.all_eq_true, Rule.stored?_eq_self_iff]

theorem all_storedRules {p : Rule → Bool} {rules : List Rule}
    (each : ∀ rule ∈ rules, ∀ stored, rule.stored? = some stored → p stored = true) :
    (storedRules rules).all p = true := by
  rw [storedRules_eq, List.all_eq_true]
  intro stored mem
  obtain ⟨rule, inside, kept⟩ := List.mem_filterMap.1 mem
  exact each rule inside stored kept

theorem Rule.settlesIn_of_stored? {count : Nat} {rule stored : Rule}
    (settles : rule.settlesIn (count + 1) = true) (h : rule.stored? = some stored) :
    stored.settlesIn count = true := by
  induction rule using Rule.induct generalizing stored with
  | group conjunction rules ih =>
    cases h
    rw [Rule.settlesIn, Rule.settleIn_eq] at settles ⊢
    rw [List.all_eq_true] at settles
    exact all_storedRules fun rule inside stored => ih rule inside (settles rule inside)
  | date c =>
    cases h
    rw [Rule.settlesIn, Bool.or_eq_true] at settles ⊢
    by_cases within : c.operator = .within
    · exact .inl (keepsAll_within c.bare within c.value)
    by_cases kept : c.keepsAll = true
    · refine .inl ?_
      rw [(storedDates_eq_self_iff c).2 kept]
      exact kept
    have few : c.value.length ≤ count + 1 := by simpa [kept, within] using settles
    have shorter := length_storedDates within kept
    cases count with
    | zero =>
      have none : storedDates c.operator c.value = [] :=
        List.eq_nil_of_length_eq_zero (by omega)
      rw [none]
      exact .inl (keepsAll_nil c.bare)
    | succ count =>
      refine .inr ?_
      change (decide (0 < count + 1) && (decide (c.operator = .within) ||
        decide ((storedDates c.operator c.value).length ≤ count + 1))) = true
      simp [within]
      omega
  | text c | integer c | flag c | mediaKind c | playlist c =>
    cases h
    rfl
  | unknown c => cases h

theorem RuleSet.settlesIn_stored {count : Nat} {set : RuleSet}
    (settles : set.settlesIn (count + 1) = true) : set.stored.settlesIn count = true := by
  rw [RuleSet.settlesIn, List.all_eq_true] at settles
  exact all_storedRules fun rule inside stored => Rule.settlesIn_of_stored? (settles rule inside)

/-! What was read from a record. -/

theorem of_decodeLeaf_date {head : Head} {payload : List UInt8} {c : Condition (List Timestamp)}
    (h : decodeLeaf head payload = .ok (.date c)) :
    c = head.with [] ∨ ∃ slots, c = head.with (decodeDates head.operator slots) := by
  cases kind : head.field.valueKind <;> simp only [decodeLeaf, kind] at h
  case rules | sealed | text | unknown => cases h
  case integer | love | mediaKind =>
    obtain same | ⟨slots, same⟩ := of_decode_payload h <;> cases same
  case date =>
    obtain same | ⟨slots, same⟩ := of_decode_payload h
    · exact .inl (Rule.date.inj same)
    · exact .inr ⟨slots, Rule.date.inj same⟩
  case flag =>
    split at h
    · cases h
    · split at h
      · cases h
      · obtain ⟨slots, same⟩ := of_decode_slots h
        cases same
  case playlist =>
    split at h
    · cases h
    · cases long : require payload 8 .playlistPayload <;> rw [long] at h <;> cases h

theorem settlesIn_decodeDates (head : Head) (slots : Slots) :
    (Rule.date (head.with (decodeDates head.operator slots))).settlesIn 2 = true := by
  rw [Rule.settlesIn, Bool.or_eq_true]
  by_cases within : head.operator = .within
  · refine .inr ?_
    change (decide (0 < 2) && (decide (head.operator = .within) || _)) = true
    rw [decide_eq_true within]
    rfl
  by_cases last : slots.values.getLast? = some 0
  · have few := slots.length_values_le
    have shorter : (decodeDates head.operator slots).length ≤ 2 := by
      rw [decodeDates, if_neg within, dropLastZero, if_pos last, List.length_map,
        List.length_dropLast]
      omega
    refine .inr ?_
    change (decide (0 < 2) && (_ || decide ((decodeDates head.operator slots).length ≤ 2))) = true
    rw [decide_eq_true shorter, Bool.or_true]
    rfl
  · refine .inl ?_
    rw [decodeDates, if_neg within, dropLastZero, if_neg last]
    exact (keepsAll_times_iff within slots.values).2 last

/-- What was read stays as it is once it was stored twice. -/
theorem settlesIn_of_decodeCriteria {bytes : List UInt8} {set : RuleSet}
    (h : decodeCriteria bytes = .ok set) : set.settlesIn 2 = true := by
  refine List.all_eq_true.2 (decodeCriteria_induct (fun _ => rfl) ?_ ?_ h)
  · intro conjunction rules all
    rw [Rule.settlesIn, Rule.settleIn_eq]
    exact List.all_eq_true.2 all
  · intro start payload rule read
    cases rule with
    | group conjunction rules => exact absurd rfl (ne_group_of_decodeLeaf read conjunction rules)
    | date c =>
      obtain rfl | ⟨slots, rfl⟩ := of_decodeLeaf_date read
      · rw [Rule.settlesIn, keepsAll_nil, Bool.true_or]
      · exact settlesIn_decodeDates (readHead start) slots
    | _ => rfl

/-! Widths. -/

/-- How many bytes a rule takes in a record. -/
def Rule.width (rule : Rule) : Nat := (rule.encode?.getD []).length

theorem length_flatten_encodeRules (rules : List Rule) :
    (encodeRules rules).flatten.length = (rules.map Rule.width).sum := by
  induction rules with
  | nil => rfl
  | cons rule rest ih =>
    rw [encodeRules, List.map_cons, List.sum_cons, Rule.width, ← ih]
    cases rule.encode? with
    | none => simp
    | some block => simp

theorem length_encodeCriteria (set : RuleSet) :
    (encodeCriteria set).length = headerWidth + (set.rules.map Rule.width).sum := by
  rw [encodeCriteria, length_encodeRuleSet, length_flatten_encodeRules]

theorem Rule.width_group (conjunction : Conjunction) (rules : List Rule) :
    (Rule.group conjunction rules).width =
      headWidth + (headerWidth + (rules.map Rule.width).sum) := by
  rw [← length_flatten_encodeRules, ← length_encodeRuleSet conjunction]
  exact length_encodeBlock _ _ _

theorem Rule.width_date (c : Condition (List Timestamp)) :
    (Rule.date c).width = headWidth + if c.value = [] then 0 else Slots.width := by
  refine (length_encodeBlock _ _ _).trans ?_
  cases c.value with
  | nil => rfl
  | cons t rest =>
    rw [if_neg (List.cons_ne_nil t rest)]
    exact congrArg _ (Slots.length_encode _)

theorem storedDates_nil (operator : Operator) : storedDates operator [] = [] := by
  simp [storedDates]

/-- What is kept of rules takes no more bytes than they do. -/
theorem sum_width_storedRules_le {rules : List Rule}
    (each : ∀ rule ∈ rules, ∀ stored, rule.stored? = some stored → stored.width ≤ rule.width) :
    ((storedRules rules).map Rule.width).sum ≤ (rules.map Rule.width).sum := by
  induction rules with
  | nil => exact Nat.le_refl _
  | cons rule rest ih =>
    have tail := ih fun next mem => each next (List.mem_cons_of_mem rule mem)
    rw [storedRules, List.map_cons, List.sum_cons]
    cases kept : rule.stored? with
    | none => exact Nat.le_trans tail (Nat.le_add_left _ _)
    | some stored =>
      rw [List.map_cons, List.sum_cons]
      exact Nat.add_le_add (each rule List.mem_cons_self stored kept) tail

theorem Rule.width_stored_le {rule stored : Rule} (h : rule.stored? = some stored) :
    stored.width ≤ rule.width := by
  induction rule using Rule.induct generalizing stored with
  | group conjunction rules ih =>
    cases h
    rw [Rule.width_group, Rule.width_group]
    have all := sum_width_storedRules_le fun rule mem stored kept => ih rule mem kept
    omega
  | date c =>
    cases h
    rw [Rule.width_date, Rule.width_date]
    by_cases none : c.value = []
    · have kept : (c.bare.with (storedDates c.operator c.value)).value = [] := by
        rw [Head.with, none, storedDates_nil]
      exact Nat.le_of_eq (by rw [if_pos none, if_pos kept])
    · rw [if_neg none]
      split <;> omega
  | text c | integer c | flag c | mediaKind c | playlist c =>
    cases h
    exact Nat.le_refl _
  | unknown c => cases h

theorem RuleSet.length_encode_stored_le (set : RuleSet) :
    (encodeCriteria set.stored).length ≤ (encodeCriteria set).length := by
  have all : ((storedRules set.rules).map Rule.width).sum ≤ (set.rules.map Rule.width).sum :=
    sum_width_storedRules_le fun _ _ _ kept => Rule.width_stored_le kept
  rw [length_encodeCriteria, length_encodeCriteria]
  exact Nat.add_le_add_left all _

/-! Whole smart playlists. -/

variable {smart : Smart} {bytes : List UInt8}

theorem decodeCriteria_of_decodeRecords {info criteria : List UInt8}
    (h : decodeRecords info criteria = .ok smart) :
    decodeCriteria criteria = .ok smart.ruleset := by
  obtain ⟨_, -, h⟩ := bind_eq_ok h
  obtain ⟨set, read, h⟩ := bind_eq_ok h
  cases h
  exact read

theorem exists_decodeRecords (h : ofBytes bytes = .ok smart) :
    ∃ info criteria, decodeRecords info criteria = .ok smart := by
  obtain ⟨_, -, h⟩ := bind_eq_ok h
  obtain ⟨_, -, h⟩ := bind_eq_ok h
  exact ⟨_, _, h⟩

theorem settlesIn_of_ofBytes (h : ofBytes bytes = .ok smart) :
    smart.ruleset.settlesIn 2 = true := by
  obtain ⟨info, criteria, read⟩ := exists_decodeRecords h
  exact settlesIn_of_decodeCriteria (decodeCriteria_of_decodeRecords read)

theorem ofBytes_toBytes_stored (h : ofBytes bytes = .ok smart)
    (fits : (encodeCriteria smart.ruleset).length < 4294967296) :
    ofBytes smart.toBytes = .ok smart.stored := by
  obtain ⟨info, criteria, read⟩ := exists_decodeRecords h
  obtain ⟨rules, limit⟩ := readable_of_decodeRecords read
  exact (ofBytes_toBytes_stored_iff rules limit).2 fits

theorem length_rules_le {set : RuleSet} (h : decodeCriteria bytes = .ok set) :
    set.rules.length ≤ readCount bytes := by
  obtain ⟨-, rfl⟩ := of_decodeCriteria h
  rw [List.length_map]
  exact length_blocks_le _ _

/-- A smart playlist that comes back whole has no rule that is left out, and so cannot be too long:
its last rule would be cut off. -/
theorem fits_of_ofBytes_toBytes (h : ofBytes smart.toBytes = .ok smart) :
    (encodeCriteria smart.ruleset).length < 4294967296 := by
  rw [ofBytes_toBytes] at h
  have read := decodeCriteria_of_decodeRecords h
  have header : headerWidth ≤ fit32 (encodeCriteria smart.ruleset).length := by
    rw [length_encodeCriteria]
    exact Nat.le_min.2 ⟨Nat.le_add_right _ _, by decide⟩
  have number : readCount ((encodeCriteria smart.ruleset).take
      (fit32 (encodeCriteria smart.ruleset).length)) =
        fit32 (encodeRules smart.ruleset.rules).length := by
    rw [readCount, Bytes.fieldAt_take (Nat.le_trans (by decide) header)]
    exact readCount_encodeRuleSet _ _
  have few := length_rules_le read
  rw [number] at few
  have count : (encodeRules smart.ruleset.rules).length = smart.ruleset.rules.length := by
    refine Nat.le_antisymm ?_ (Nat.le_trans few (fit32_le _))
    rw [encodeRules_eq]
    exact List.length_filterMap_le _ _
  have known : ∀ rule ∈ smart.ruleset.rules, rule.encode? ≠ none := by
    rw [encodeRules_eq] at count
    intro rule mem
    exact Option.isSome_iff_ne_none.1 (List.filterMap_length_eq_length.1 count rule mem)
  exact Nat.lt_of_le_of_lt (le_of_decodeCriteria_take known count.symm header (fit32_lt _) read)
    (fit32_lt _)

/-- What came from the store is given back by it as it is if its rules settle at once, and their
length fits. -/
theorem ofBytes_toBytes_eq_self_iff (h : ofBytes bytes = .ok smart) :
    ofBytes smart.toBytes = .ok smart ↔
      (encodeCriteria smart.ruleset).length < 4294967296 ∧ smart.ruleset.settlesIn 0 = true := by
  rw [← RuleSet.stored_eq_self_iff]
  constructor
  · intro same
    have fits := fits_of_ofBytes_toBytes same
    rw [ofBytes_toBytes_stored h fits] at same
    exact ⟨fits, congrArg Smart.ruleset (Except.ok.inj same)⟩
  · rintro ⟨fits, same⟩
    rw [ofBytes_toBytes_stored h fits, Smart.stored, same]

/-- What came from the store stays as it is once it was stored twice more. -/
theorem settles_in_two (h : ofBytes bytes = .ok smart)
    (fits : (encodeCriteria smart.ruleset).length < 4294967296) :
    ∃ twice thrice, ofBytes smart.toBytes = .ok twice ∧ ofBytes twice.toBytes = .ok thrice ∧
      ofBytes thrice.toBytes = .ok thrice := by
  have second := ofBytes_toBytes_stored h fits
  have fits₂ : (encodeCriteria smart.stored.ruleset).length < 4294967296 :=
    Nat.lt_of_le_of_lt smart.ruleset.length_encode_stored_le fits
  have third := ofBytes_toBytes_stored second fits₂
  have fits₃ : (encodeCriteria smart.stored.stored.ruleset).length < 4294967296 :=
    Nat.lt_of_le_of_lt smart.stored.ruleset.length_encode_stored_le fits₂
  refine ⟨_, _, second, third, (ofBytes_toBytes_eq_self_iff third).2 ⟨fits₃, ?_⟩⟩
  exact RuleSet.settlesIn_stored (RuleSet.settlesIn_stored (settlesIn_of_ofBytes h))

end Smart

end MusicLibrary
