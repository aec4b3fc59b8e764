import MusicLibrary.Proofs.Smart.Payload

/-! Which smart playlists the binary form can hold: no unknown rules, no values that the payload of
a rule has no room for, and codes that have a name under that name, at every depth. -/

namespace MusicLibrary.Smart

/-- A code that has a name stands under its name. -/
def Canonical {α κ : Type} (named : List α) (code : α → κ) (other : κ → α) (x : α) : Prop :=
  ∀ c, x = other c → c ∉ named.map code

theorem Canonical.find?_eq_none {α κ : Type} [BEq κ] [LawfulBEq κ] {named : List α} {code : α → κ}
    {other : κ → α} {c : κ} (h : Canonical named code other (other c)) :
    (named.find? fun x => code x == c) = none := by
  rw [List.find?_eq_none]
  intro x mem same
  rw [beq_iff_eq] at same
  exact h c rfl (List.mem_map.2 ⟨x, mem, same⟩)

theorem Sign.ofCode_code {sign : Sign} (h : Canonical named code other sign) :
    ofCode sign.code = sign := by
  cases sign with
  | other c =>
    rw [ofCode, code, h.find?_eq_none]
    rfl
  | _ => exact ofCode_code_of_mem (by decide)

theorem Operator.ofCode_code {operator : Operator} (h : Canonical named code other operator) :
    ofCode operator.code = operator := by
  cases operator with
  | other c =>
    rw [ofCode, code, h.find?_eq_none]
    rfl
  | _ => exact ofCode_code_of_mem (by decide)

theorem LimitField.ofCode_code {field : LimitField} (h : Canonical named code other field) :
    ofCode field.code = field := by
  cases field with
  | other c =>
    rw [ofCode, code, h.find?_eq_none]
    rfl
  | _ => exact ofCode_code_of_mem (by decide)

/-- Only an attribute without a name has values of an unknown type. -/
theorem Field.ofCode_code {field : Field} (h : field.valueKind ≠ .unknown) :
    ofCode field.code = field := by
  cases field with
  | other c => exact absurd rfl h
  | _ => exact ofCode_code_of_mem (by decide)

/-- The attribute has values of one of the kinds, and sign and comparison stand under their
names. -/
structure Condition.HasHead {V : Type} (c : Condition V) (kinds : List ValueKind) : Prop where
  kind : c.field.valueKind ∈ kinds
  sign : Canonical Sign.named Sign.code Sign.other c.sign
  operator : Canonical Operator.named Operator.code Operator.other c.operator

/-- A rule that the record can hold. -/
inductive Rule.Representable : Rule → Prop
  | group {conjunction rules} (all : ∀ rule ∈ rules, Representable rule)
    (count : rules.length < 4294967296)
    (fits : (encodeCriteria ⟨conjunction, rules⟩).length < 4294967296) :
    Representable (.group conjunction rules)
  | text {c} (head : c.HasHead [.text])
    (value : c.value = [] ∨
      ∃ s, c.value = [s] ∧ s ≠ "" ∧ (Text.Utf16.encode s).length < 4294967296) :
    Representable (.text c)
  | integer {c} (head : c.HasHead [.integer]) (few : c.value.length ≤ 3)
    (range : ∀ n ∈ c.value, 0 ≤ n.toInt ∧ n.toInt < 4294967296) : Representable (.integer c)
  | flag {c} (head : c.HasHead [.flag, .love]) : Representable (.flag c)
  | offset {c} (head : c.HasHead [.date]) (within : c.operator = .within)
    (value : c.value = [] ∨ ∃ t, c.value = [t] ∧ t.ms.toInt % 1000 = 0) : Representable (.date c)
  | dates {c} (head : c.HasHead [.date]) (points : c.operator ≠ .within) (few : c.value.length ≤ 3)
    (range : ∀ t ∈ c.value, InRecord t)
    (later : ∀ t, c.value.getLast? = some t → t.ms.toInt ≠ start1904) : Representable (.date c)
  | mediaKind {c} (head : c.HasHead [.mediaKind]) : Representable (.mediaKind c)
  | playlist {c} (head : c.HasHead [.playlist]) : Representable (.playlist c)

/-- A count of items, or a whole number of megabytes or minutes, that fits thirty-two bits. -/
def Cap.Fits : Cap → Prop
  | .items count => count.toNat < 4294967296
  | .size bytes => bytes.toNat % 1048576 = 0 ∧ bytes.toNat / 1048576 < 4294967296
  | .time ms => ms.toNat % 60000 = 0 ∧ ms.toNat / 60000 < 4294967296

structure Limit.Representable (limit : Limit) : Prop where
  cap : limit.cap.Fits
  field : Canonical LimitField.named LimitField.code LimitField.other limit.field

end Smart

/-- A smart playlist that the two records can hold. -/
structure Smart.Representable (smart : Smart) : Prop where
  rules : ∀ rule ∈ smart.ruleset.rules, rule.Representable
  count : smart.ruleset.rules.length < 4294967296
  limit : ∀ limit, smart.limit = some limit → limit.Representable

end MusicLibrary
