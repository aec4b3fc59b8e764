import MusicLibrary.Proofs.Smart.Representable
import MusicLibrary.Proofs.Text.Numeral

/-! Names of codes read back. An attribute, a comparison, a sign or an ordering is found again by
its name; a code without a name is found by its digits, which no name looks like. -/

namespace MusicLibrary.Smart

theorem codeOfLabel?_codeLabel {code bound : Nat} (small : code < bound) :
    codeOfLabel? bound (codeLabel code) = some code := by
  rw [codeOfLabel?, codeLabel, String.toList_ofList]
  simp [Text.readUnsigned_paddedHex, small]

/-- The digits of a code are the name of none, if no name starts with a zero. -/
theorem find?_codeLabel {α : Type} {named : List α} {label : α → String}
    (plain : ∀ x ∈ named, (label x).toList.head? ≠ some '0') (code : Nat) :
    (named.find? fun x => label x == codeLabel code) = none := by
  rw [List.find?_eq_none]
  intro x mem same
  rw [beq_iff_eq] at same
  apply plain x mem
  rw [same, codeLabel, String.toList_ofList]
  rfl

/-- A code without a name is read from its digits. -/
theorem read_codeLabel {α κ : Type} [BEq κ] [LawfulBEq κ] {named : List α} {label : α → String}
    (plain : ∀ x ∈ named, (label x).toList.head? ≠ some '0') {code : α → κ} {other : κ → α} {c : κ}
    (h : Canonical named code other (other c)) {toNat : κ → Nat} {ofNat : Nat → κ}
    (whole : ofNat (toNat c) = c) {bound : Nat} (small : toNat c < bound) :
    ((named.find? fun x => label x == codeLabel (toNat c)) <|>
      (codeOfLabel? bound (codeLabel (toNat c))).map fun n =>
        (named.find? fun x => code x == ofNat n).getD (other (ofNat n))) = some (other c) := by
  rw [find?_codeLabel plain, codeOfLabel?_codeLabel small, Option.map_some, whole,
    h.find?_eq_none]
  rfl

theorem Field.ofLabel?_label {field : Field} (h : Canonical named code other field) :
    ofLabel? field.label = some field := by
  have plain : ∀ x ∈ named, (label x).toList.head? ≠ some '0' := by decide +kernel
  cases field with
  | other c => exact read_codeLabel plain h UInt32.ofNat_toNat c.toNat_lt
  | _ => decide +kernel

theorem Operator.ofLabel?_label {operator : Operator} (h : Canonical named code other operator) :
    ofLabel? operator.label = some operator := by
  have plain : ∀ x ∈ named, (label x).toList.head? ≠ some '0' := by decide +kernel
  cases operator with
  | other c => exact read_codeLabel plain h UInt16.ofNat_toNat c.toNat_lt
  | _ => decide +kernel

theorem Sign.ofLabel?_label {sign : Sign} (h : Canonical named code other sign) :
    ofLabel? sign.label = some sign := by
  have plain : ∀ x ∈ named, (label x).toList.head? ≠ some '0' := by decide +kernel
  cases sign with
  | other c => exact read_codeLabel plain h UInt8.ofNat_toNat c.toNat_lt
  | _ => decide +kernel

theorem LimitField.ofLabel?_label {field : LimitField} (h : Canonical named code other field) :
    ofLabel? field.label = some field := by
  have plain : ∀ x ∈ named, (label x).toList.head? ≠ some '0' := by decide +kernel
  cases field with
  | other c => exact read_codeLabel plain h UInt32.ofNat_toNat c.toNat_lt
  | _ => decide +kernel

end MusicLibrary.Smart
