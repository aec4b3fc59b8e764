import MusicLibrary.Proofs.Smart.Readable

/-! The info record read back. The larger unit is only taken where it measures an amount exactly, so
no amount that the smaller one can measure is lost. -/

namespace MusicLibrary.Smart

/-- Whole units that fit thirty-two bits give the amount back. -/
theorem mul_scale {amount scale : UInt64} (whole : amount.toNat % scale.toNat = 0)
    (fits : amount.toNat / scale.toNat < 4294967296) :
    (UInt32.ofNat (fit32 (amount / scale).toNat)).toUInt64 * scale = amount := by
  have bound := amount.toNat_lt
  have product : amount.toNat / scale.toNat * scale.toNat = amount.toNat :=
    Nat.div_mul_cancel (Nat.dvd_of_mod_eq_zero whole)
  rw [← UInt64.toNat_inj, UInt64.toNat_mul, UInt32.toNat_toUInt64, UInt64.toNat_div, fit32_eq fits,
    UInt32.toNat_ofNat_of_lt' fits, product]
  omega

/-- An amount that is a whole number of its units, and one that fits thirty-two bits. -/
def Cap.IsWhole (cap : Cap) : Prop :=
  cap.amount.toNat % cap.unit.scale.toNat = 0 ∧ cap.amount.toNat / cap.unit.scale.toNat < 4294967296

theorem Cap.cap_units {cap : Cap} (h : cap.IsWhole) :
    cap.unit.cap (.ofNat (fit32 cap.units.toNat)) = cap := by
  have amount := mul_scale h.1 h.2
  cases cap with
  | items count => exact congrArg Cap.items amount
  | size bytes =>
    have unit : (Cap.size bytes).unit = .gigabytes ∨ (Cap.size bytes).unit = .megabytes := by
      rw [Cap.unit]
      split <;> simp
    rcases unit with unit | unit <;> rw [unit] at amount <;> rw [Cap.units, unit] <;>
      exact congrArg Cap.size amount
  | time ms =>
    have unit : (Cap.time ms).unit = .hours ∨ (Cap.time ms).unit = .minutes := by
      rw [Cap.unit]
      split <;> simp
    rcases unit with unit | unit <;> rw [unit] at amount <;> rw [Cap.units, unit] <;>
      exact congrArg Cap.time amount

/-- The larger unit is written only where it measures an amount exactly, and the smaller one only
where the larger one does not. -/
theorem isWhole_unit {n : UInt64} {large small : LimitUnit}
    (whole : n.toNat % small.scale.toNat = 0)
    (most : n.toNat / large.scale.toNat < 4294967296)
    (fits : n.toNat / small.scale.toNat < 4294967296 ∨ n.toNat % large.scale.toNat = 0) :
    let unit := if 0 < n ∧ n % large.scale = 0 then large else small
    n.toNat % unit.scale.toNat = 0 ∧ n.toNat / unit.scale.toNat < 4294967296 := by
  intro unit
  have measured : n % large.scale = 0 ↔ n.toNat % large.scale.toNat = 0 := by
    rw [← UInt64.toNat_inj, UInt64.toNat_mod]
    rfl
  by_cases chosen : 0 < n ∧ n % large.scale = 0
  · simp only [unit, if_pos chosen]
    exact ⟨measured.1 chosen.2, most⟩
  · simp only [unit, if_neg chosen]
    refine ⟨whole, fits.elim id fun exact => ?_⟩
    have none : n.toNat = 0 := Nat.eq_zero_of_not_pos fun some =>
      chosen ⟨UInt64.lt_iff_toNat_lt.2 some, measured.2 exact⟩
    rw [none, Nat.zero_div]
    decide

theorem Cap.Fits.isWhole {cap : Cap} (h : cap.Fits) : cap.IsWhole := by
  cases cap with
  | items count => exact ⟨Nat.mod_one _, (Nat.div_one _).symm ▸ h⟩
  | size bytes =>
    have most : bytes.toNat / 1073741824 < 4294967296 := by have := h.2; omega
    exact isWhole_unit h.1 most (.inl h.2)
  | time ms =>
    have most : ms.toNat / 3600000 < 4294967296 := by have := h.2; omega
    exact isWhole_unit h.1 most (.inl h.2)

/-- A limit that the info record can hold in the unit in which it is written. -/
structure Limit.IsWhole (limit : Limit) : Prop where
  cap : limit.cap.IsWhole
  field : Canonical LimitField.named LimitField.code LimitField.other limit.field

theorem Limit.Representable.isWhole {limit : Limit} (h : limit.Representable) : limit.IsWhole :=
  ⟨h.cap.isWhole, h.field⟩

namespace Info

theorem flagByte_ne_zero (flag : Bool) : ((flagByte flag).toNat != 0) = flag := by
  cases flag <;> rfl

theorem decodeLimit_encode {info : Info}
    (h : ∀ limit, info.limit = some limit → limit.IsWhole) :
    decodeLimit info.encode = info.limit := by
  obtain ⟨live, checked, limit⟩ := info
  cases limit with
  | none => rfl
  | some limit =>
    obtain ⟨cap, field⟩ := h limit rfl
    have unit : UInt8.ofNat limit.cap.unit.code.toNat = limit.cap.unit.code := UInt8.ofNat_toNat
    have small : fit32 limit.cap.units.toNat < Nat.pow 256 4 := fit32_lt _
    have order : (flagByte (!limit.descending)).toNat = 0 ↔ limit.descending = true := by
      cases limit.descending <;> decide
    simp [decodeLimit, encode, limitBytes, Bytes.fieldAt_append_right, List.append_assoc,
      Bytes.fieldAt_bigEndian_append 4 small, unit, Cap.cap_units cap, LimitField.ofCode_code field,
      order]

theorem decode_encode {info : Info}
    (h : ∀ limit, info.limit = some limit → limit.IsWhole) :
    decode info.encode = .ok info := by
  have long : require info.encode leastWidth .infoRecord = .ok () := by
    rw [require_eq_ok_iff, length_encode]
    decide
  have live : (Bytes.fieldAt info.encode 0 1 != 0) = info.liveUpdating := by
    rw [encode, Bytes.fieldAt_cons_one, flagByte_ne_zero]
  have checked : (Bytes.fieldAt info.encode 12 1 != 0) = info.checkedOnly := by
    simp [encode, Bytes.fieldAt_append_right, flagByte_ne_zero]
  rw [decode, long, live, checked, decodeLimit_encode h]
  rfl

end Info

/-! Limits that are read. -/

/-- A count of units is a whole number of the unit that is written for it. -/
theorem LimitUnit.isWhole_cap (unit : LimitUnit) (size : UInt32) : (unit.cap size).IsWhole := by
  have small := size.toNat_lt
  have amount : (unit.cap size).amount.toNat = size.toNat * unit.scale.toNat := by
    have product : (unit.cap size).amount = size.toUInt64 * unit.scale := by cases unit <;> rfl
    have scale : unit.scale.toNat ≤ 1073741824 := by cases unit <;> decide
    rw [product, UInt64.toNat_mul, UInt32.toNat_toUInt64]
    exact Nat.mod_eq_of_lt (Nat.lt_of_le_of_lt (Nat.mul_le_mul_left _ scale) (by omega))
  cases unit with
  | items =>
    refine ⟨Nat.mod_one _, ?_⟩
    rw [amount]
    exact (Nat.div_one _).symm ▸ (Nat.mul_one _).symm ▸ small
  | megabytes | gigabytes | minutes | hours =>
    refine isWhole_unit ?_ ?_ ?_ <;> rw [amount] <;>
      simp only [LimitUnit.scale, UInt64.reduceToNat] <;> omega

theorem isWhole_decodeLimit {bytes : List UInt8} {limit : Limit}
    (h : Info.decodeLimit bytes = some limit) : limit.IsWhole := by
  rw [Info.decodeLimit] at h
  split at h
  · cases h
  · obtain ⟨unit, -, rfl⟩ := Option.map_eq_some_iff.1 h
    exact ⟨unit.isWhole_cap _, LimitField.canonical_ofCode _⟩

end MusicLibrary.Smart
