import MusicLibrary.Text.Blank
import MusicLibrary.Text.Numeral
import MusicLibrary.Json.Basic

/-! Persistent ids: sixty-four bits, written as sixteen hexadecimal digits. A row is stored under
a signed key, which keeps the low bits and turns the highest one into a minus sign. -/

namespace MusicLibrary

structure PersistentId where
  value : UInt64
  deriving DecidableEq, Inhabited, Hashable

/-- The signed form under which a row is stored. -/
abbrev Key := Int64

namespace PersistentId

/-- The signed form of an id. The id with the highest bit alone falls together with zero. -/
def key (id : PersistentId) : Key :=
  if id.value.toNat < 0x8000000000000000 then Int64.ofNat id.value.toNat
  else -Int64.ofNat (id.value.toNat - 0x8000000000000000)

/-- The id of a signed form: the minus sign becomes the highest bit again. -/
def ofKey (key : Key) : PersistentId :=
  if key.toInt < 0 then ⟨UInt64.ofNat (key.toInt.natAbs ||| 0x8000000000000000)⟩
  else ⟨UInt64.ofNat key.toInt.natAbs⟩

def stored (id : PersistentId) : PersistentId := ofKey id.key

/-- Sixteen hexadecimal digits in upper case. -/
def hexChars (id : PersistentId) : List Char := Text.paddedHex 16 id.value.toNat

def hex (id : PersistentId) : String := String.ofList id.hexChars

def ofTrimmed? (s : String) : Option PersistentId :=
  if s.utf8ByteSize = 0 ∨ 16 < s.utf8ByteSize then none
  else (Text.readUnsigned 16 s.toList).map fun n => ⟨UInt64.ofNat n⟩

def parse? (s : String) : Option PersistentId := ofTrimmed? (Text.trim s)

def toJson (id : PersistentId) : Json := .text id.hex

def ofJson? : Json → Option PersistentId
  | .text s => parse? s
  | _ => none

/-- The id with the highest bit alone. -/
def highBit : PersistentId := ⟨0x8000000000000000⟩

theorem toNat_highBit : highBit.value.toNat = 0x8000000000000000 := rfl

theorem toInt_neg_ofNat {n : Nat} (h : n < 0x8000000000000000) :
    (-Int64.ofNat n).toInt = -(n : Int) := by
  rw [Int64.toInt_neg, Int64.toInt_ofNat_of_lt h]
  exact Int.bmod_eq_of_le (by omega) (by omega)

theorem ofKey_ofNat {n : Nat} (h : n < 0x8000000000000000) :
    ofKey (Int64.ofNat n) = ⟨UInt64.ofNat n⟩ := by
  unfold ofKey
  rw [Int64.toInt_ofNat_of_lt h, if_neg (by omega), Int.natAbs_natCast]

theorem ofKey_neg_ofNat {n : Nat} (h : n < 0x8000000000000000) (pos : 0 < n) :
    ofKey (-Int64.ofNat n) = ⟨UInt64.ofNat (n ||| 0x8000000000000000)⟩ := by
  unfold ofKey
  rw [toInt_neg_ofNat h, if_pos (by omega), Int.natAbs_neg, Int.natAbs_natCast]

/-- Setting the highest bit again undoes its removal. -/
theorem sub_or_highBit {n : Nat} (low : 0x8000000000000000 ≤ n) (high : n < 0x10000000000000000) :
    (n - 0x8000000000000000) ||| 0x8000000000000000 = n := by
  have sum := Nat.two_pow_add_eq_or_of_lt (i := 63)
    (show n - 0x8000000000000000 < _ by omega) 1
  rw [Nat.or_comm]
  exact sum.symm.trans (by omega)

/-- Every id but one comes back from the store as it went in. -/
theorem stored_eq {id : PersistentId} (h : id ≠ highBit) : id.stored = id := by
  have bound := id.value.toNat_lt
  have other : id.value.toNat ≠ 0x8000000000000000 := fun same => h <| by
    rw [← toNat_highBit, UInt64.toNat_inj] at same
    cases id
    exact congrArg _ same
  unfold stored key
  split
  · rename_i small
    rw [ofKey_ofNat small, UInt64.ofNat_toNat]
  · rw [ofKey_neg_ofNat (by omega) (by omega), sub_or_highBit (by omega) bound,
      UInt64.ofNat_toNat]

/-- The one id that the store does not keep. -/
example : highBit.stored = ⟨0⟩ := by decide

example : (⟨0xFFFFFFFFFFFFFFFF⟩ : PersistentId).key = -9223372036854775807 := by decide

end PersistentId

end MusicLibrary
