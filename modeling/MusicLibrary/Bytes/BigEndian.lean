/-! Unsigned integers as bytes, the most significant first. -/

namespace MusicLibrary.Bytes

/-- The number in a given count of bytes; higher digits are cut off. -/
def bigEndian : Nat → Nat → List UInt8
  | 0, _ => []
  | width + 1, n => bigEndian width (n / 256) ++ [UInt8.ofNat n]

def readBigEndian (bytes : List UInt8) : Nat :=
  bytes.foldl (fun n byte => 256 * n + byte.toNat) 0

/-- The number in a range of the bytes; bytes beyond the end are not read. -/
def fieldAt (bytes : List UInt8) (start width : Nat) : Nat :=
  readBigEndian ((bytes.drop start).take width)

def zeros (count : Nat) : List UInt8 := List.replicate count 0

@[simp] theorem length_bigEndian (width n : Nat) : (bigEndian width n).length = width := by
  induction width generalizing n with
  | zero => rfl
  | succ width ih => simp [bigEndian, ih]

@[simp] theorem length_zeros (count : Nat) : (zeros count).length = count := by simp [zeros]

/-- What is written is read back, up to the width. -/
theorem readBigEndian_bigEndian (width n : Nat) :
    readBigEndian (bigEndian width n) = n % Nat.pow 256 width := by
  induction width generalizing n with
  | zero => simp [bigEndian, readBigEndian, Nat.mod_one]
  | succ width ih =>
    have step : n % Nat.pow 256 (width + 1) = n % 256 + 256 * (n / 256 % Nat.pow 256 width) := by
      rw [show Nat.pow 256 (width + 1) = 256 * Nat.pow 256 width from Nat.pow_succ', Nat.mod_mul]
    have high := ih (n / 256)
    simp only [readBigEndian] at high
    simp only [bigEndian, readBigEndian, List.foldl_append, List.foldl_cons, List.foldl_nil, high,
      UInt8.toNat_ofNat', step]
    omega

/-! Fields of bytes that were put together from parts. -/

@[simp] theorem fieldAt_cons_succ (byte : UInt8) (bytes : List UInt8) (start width : Nat) :
    fieldAt (byte :: bytes) (start + 1) width = fieldAt bytes start width := rfl

@[simp] theorem fieldAt_cons_one (byte : UInt8) (bytes : List UInt8) :
    fieldAt (byte :: bytes) 0 1 = byte.toNat := by
  simp [fieldAt, readBigEndian]

theorem fieldAt_append_right {a : List UInt8} {start : Nat} (h : a.length ≤ start)
    (b : List UInt8) (width : Nat) :
    fieldAt (a ++ b) start width = fieldAt b (start - a.length) width := by
  rw [fieldAt, List.drop_append, List.drop_eq_nil_of_le h, List.nil_append, fieldAt]

theorem fieldAt_bigEndian_append (width : Nat) {n : Nat} (h : n < Nat.pow 256 width)
    (rest : List UInt8) :
    fieldAt (bigEndian width n ++ rest) 0 width = n := by
  have front : (bigEndian width n ++ rest).take width = bigEndian width n :=
    List.take_left' (length_bigEndian width n)
  rw [fieldAt, List.drop_zero, front, readBigEndian_bigEndian, Nat.mod_eq_of_lt h]

/-- Bytes that are cut off behind a field do not matter to it. -/
theorem fieldAt_take {start width count : Nat} (h : start + width ≤ count) (bytes : List UInt8) :
    fieldAt (bytes.take count) start width = fieldAt bytes start width := by
  have least : min width (count - start) = width := by omega
  rw [fieldAt, List.drop_take, List.take_take, least, fieldAt]

@[simp] theorem ofNat_fieldAt_two (n : UInt16) (rest : List UInt8) :
    UInt16.ofNat (fieldAt (bigEndian 2 n.toNat ++ rest) 0 2) = n := by
  rw [fieldAt_bigEndian_append 2 n.toNat_lt, UInt16.ofNat_toNat]

@[simp] theorem ofNat_fieldAt_four (n : UInt32) (rest : List UInt8) :
    UInt32.ofNat (fieldAt (bigEndian 4 n.toNat ++ rest) 0 4) = n := by
  rw [fieldAt_bigEndian_append 4 n.toNat_lt, UInt32.ofNat_toNat]

@[simp] theorem ofNat_fieldAt_eight (n : UInt64) (rest : List UInt8) :
    UInt64.ofNat (fieldAt (bigEndian 8 n.toNat ++ rest) 0 8) = n := by
  rw [fieldAt_bigEndian_append 8 n.toNat_lt, UInt64.ofNat_toNat]

example : bigEndian 4 0x01020304 = [1, 2, 3, 4] := by decide

end MusicLibrary.Bytes
