import MusicLibrary.Text.Utf16

/-! UTF-16 read back. No character is a surrogate, so a unit that is one belongs to a pair, and the
pairs are put together as they were taken apart. -/

namespace MusicLibrary.Text.Utf16

theorem toNat_cases (c : Char) : c.toNat < 0xD800 ∨ (0xE000 ≤ c.toNat ∧ c.toNat < 0x110000) := by
  have valid : c.toNat < 0xD800 ∨ (0xDFFF < c.toNat ∧ c.toNat < 0x110000) := c.valid
  omega

/-- A unit that is no surrogate is a character of its own, whatever follows. -/
theorem ofUnits_cons {u : Nat} (notHigh : isHigh u = false) (notLow : isLow u = false)
    (rest : List Nat) : ofUnits (u :: rest) = Char.ofNat u :: ofUnits rest := by
  have alone : single u = Char.ofNat u := by
    rw [single, notHigh, notLow]
    rfl
  cases rest with
  | nil =>
    change [single u] = [Char.ofNat u]
    rw [alone]
  | cons v rest =>
    rw [ofUnits, notHigh, alone]
    rfl

theorem ofUnits_units_append (c : Char) (rest : List Nat) :
    ofUnits (units c ++ rest) = c :: ofUnits rest := by
  have range := toNat_cases c
  unfold units
  by_cases small : c.toNat < 0x10000
  · rw [if_pos small]
    have notHigh : isHigh c.toNat = false := by
      rw [isHigh, Bool.and_eq_false_iff, decide_eq_false_iff_not, decide_eq_false_iff_not]
      omega
    have notLow : isLow c.toNat = false := by
      rw [isLow, Bool.and_eq_false_iff, decide_eq_false_iff_not, decide_eq_false_iff_not]
      omega
    rw [List.singleton_append, ofUnits_cons notHigh notLow, Char.ofNat_toNat]
  · rw [if_neg small]
    generalize high : 0xD800 + (c.toNat - 0x10000) / 0x400 = u
    generalize low : 0xDC00 + (c.toNat - 0x10000) % 0x400 = v
    have isPair : (isHigh u && isLow v) = true := by
      simp only [isHigh, isLow, Bool.and_eq_true, decide_eq_true_eq]
      omega
    have same : 0x10000 + (u - 0xD800) * 0x400 + (v - 0xDC00) = c.toNat := by omega
    rw [List.cons_append, List.cons_append, List.nil_append, ofUnits, if_pos isPair, pair, same,
      Char.ofNat_toNat]

theorem ofUnits_flatMap_units (cs : List Char) : ofUnits (cs.flatMap units) = cs := by
  induction cs with
  | nil => rfl
  | cons c rest ih => rw [List.flatMap_cons, ofUnits_units_append, ih]

theorem lt_of_mem_units {c : Char} {u : Nat} (h : u ∈ units c) : u < 0x10000 := by
  have range := toNat_cases c
  unfold units at h
  split at h
  · rw [List.mem_singleton] at h
    omega
  · simp only [List.mem_cons, List.not_mem_nil, or_false] at h
    omega

theorem unitsOfBytes_flatMap {us : List Nat} (h : ∀ u ∈ us, u < 0x10000) :
    unitsOfBytes (us.flatMap fun u => [UInt8.ofNat (u / 256), UInt8.ofNat (u % 256)]) =
      (us, false) := by
  induction us with
  | nil => rfl
  | cons u rest ih =>
    have small := h u List.mem_cons_self
    have high : (UInt8.ofNat (u / 256)).toNat = u / 256 := by
      rw [UInt8.toNat_ofNat']
      omega
    have low : (UInt8.ofNat (u % 256)).toNat = u % 256 := by
      rw [UInt8.toNat_ofNat']
      omega
    have whole : u / 256 * 256 + u % 256 = u := by omega
    rw [List.flatMap_cons, List.cons_append, List.cons_append, List.nil_append, unitsOfBytes,
      ih fun v hv => h v (List.mem_cons_of_mem u hv), high, low, whole]

@[simp] theorem decode_encode (s : String) : decode (encode s) = s := by
  have small : ∀ u ∈ s.toList.flatMap units, u < 0x10000 := by
    intro u mem
    obtain ⟨c, _, mem⟩ := List.mem_flatMap.1 mem
    exact lt_of_mem_units mem
  unfold decode encode
  rw [unitsOfBytes_flatMap small]
  simp [ofUnits_flatMap_units]

theorem encode_ne_nil {s : String} (h : s ≠ "") : encode s ≠ [] := by
  intro empty
  rw [encode, List.flatMap_eq_nil_iff] at empty
  apply h
  rw [← String.toList_eq_nil_iff, List.eq_nil_iff_forall_not_mem]
  intro c mem
  obtain ⟨u, rest, some⟩ := List.exists_cons_of_ne_nil (units_ne_nil c)
  have absent := empty u (List.mem_flatMap.2 ⟨c, mem, some ▸ List.mem_cons_self⟩)
  cases absent

theorem ofUnits_ne_nil (u : Nat) (rest : List Nat) : ofUnits (u :: rest) ≠ [] := by
  cases rest with
  | nil => exact List.cons_ne_nil _ _
  | cons v rest =>
    rw [ofUnits]
    split <;> exact List.cons_ne_nil _ _

/-- Even a single byte is read as a character. -/
theorem decode_ne_empty {bytes : List UInt8} (h : bytes ≠ []) : decode bytes ≠ "" := by
  rw [decode, ne_eq, ← String.toList_eq_nil_iff, String.toList_ofList, List.append_eq_nil_iff]
  rintro ⟨none, whole⟩
  match bytes with
  | [] => exact h rfl
  | [_] => exact List.cons_ne_nil _ _ whole
  | _ :: _ :: _ => exact ofUnits_ne_nil _ _ none

end MusicLibrary.Text.Utf16
