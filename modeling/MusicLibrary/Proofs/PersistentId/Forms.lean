import MusicLibrary.Proofs.PersistentId
import MusicLibrary.Proofs.Text.HexNumeral

/-! The forms of an id: a number, the text that is written of it, and the key of its row. Every id
is read from its text, and of other texts just the hexadecimal numerals of up to sixteen bytes are
read, with a plus sign and blanks around them allowed. Ids and keys correspond to each other, but
for the id with the highest bit alone and the least key. -/

namespace MusicLibrary.PersistentId

open Text

/-! Texts. -/

/-- A text that an id can be read from: up to sixteen bytes of hexadecimal digits of either case,
with a plus sign allowed in front. -/
structure IsNumeral (s : String) (digits : List Char) : Prop where
  size : 1 ≤ s.utf8ByteSize ∧ s.utf8ByteSize ≤ 16
  text : s.toList = digits ∨ s.toList = '+' :: digits
  nonempty : digits ≠ []
  digits : ∃ n, SpellsHex digits n

theorem IsNumeral.length_le {s : String} {digits : List Char} (h : IsNumeral s digits) :
    digits.length ≤ 16 := by
  obtain ⟨n, spells⟩ := h.digits
  have size := h.size.2
  rw [← String.ofList_toList (s := s)] at size
  rcases h.text with text | text <;> rw [text] at size
  · rwa [utf8ByteSize_ofList spells.utf8Size] at size
  · have plain : ∀ c ∈ '+' :: digits, c.utf8Size = 1 :=
      List.forall_mem_cons.2 ⟨rfl, spells.utf8Size⟩
    rw [utf8ByteSize_ofList plain, List.length_cons] at size
    omega

/-- Sixteen digits are enough for a word, and no more are read. -/
theorem IsNumeral.lt {s : String} {digits : List Char} {n : Nat} (h : IsNumeral s digits)
    (spells : SpellsHex digits n) : n < 2 ^ 64 :=
  calc
    n < 16 ^ digits.length := spells.lt
    _ ≤ 16 ^ 16 := Nat.pow_le_pow_right (by decide) h.length_le
    _ = 2 ^ 64 := by decide

theorem ofTrimmed?_eq_some_iff {s : String} {id : PersistentId} :
    ofTrimmed? s = some id ↔
      ∃ digits, IsNumeral s digits ∧ SpellsHex digits id.value.toNat := by
  constructor
  · intro read
    unfold ofTrimmed? at read
    split at read
    · cases read
    · rename_i size
      obtain ⟨n, number, rfl⟩ := Option.map_eq_some_iff.1 read
      obtain ⟨digits, text, nonempty, spells⟩ := readUnsigned_eq_some_iff.1 number
      have numeral : IsNumeral s digits := ⟨by omega, text, nonempty, n, spells⟩
      refine ⟨digits, numeral, ?_⟩
      rwa [UInt64.toNat_ofNat_of_lt' (numeral.lt spells)]
  · rintro ⟨digits, numeral, spells⟩
    have number : readUnsigned 16 s.toList = some id.value.toNat :=
      readUnsigned_eq_some_iff.2 ⟨digits, numeral.text, numeral.nonempty, spells⟩
    have size := numeral.size
    rw [ofTrimmed?, if_neg (by omega), number, Option.map_some, UInt64.ofNat_toNat]

/-- A numeral of an id is written in upper case, with zeros up to sixteen digits. -/
theorem IsNumeral.hex_eq {s : String} {digits : List Char} {id : PersistentId}
    (h : IsNumeral s digits) (spells : SpellsHex digits id.value.toNat) :
    id.hex = String.ofList ((digits.map Char.toUpper).leftpad 16 '0') := by
  rw [hex, hexChars, spells.paddedHex h.nonempty h.length_le]

/-! Keys. -/

theorem toInt_key (id : PersistentId) :
    id.key.toInt = if id.value.toNat < 0x8000000000000000 then (id.value.toNat : Int)
      else -(id.value.toNat - 0x8000000000000000 : Nat) := by
  have bound := id.value.toNat_lt
  unfold key
  split
  · rename_i small
    exact Int64.toInt_ofNat_of_lt small
  · exact toInt_neg_ofNat (by omega)

/-- The least key belongs to no id. -/
theorem key_ne_minValue (id : PersistentId) : id.key ≠ Int64.minValue := by
  have bound := id.value.toNat_lt
  have value := toInt_key id
  intro least
  rw [least, Int64.toInt_minValue] at value
  split at value <;> omega

theorem ofKey_key_iff (id : PersistentId) : ofKey id.key = id ↔ id ≠ highBit := by
  refine ⟨?_, stored_eq⟩
  rintro kept rfl
  exact stored_ne_highBit highBit kept

theorem natAbs_toInt_lt {key : Key} (h : key ≠ Int64.minValue) : key.toInt.natAbs < 2 ^ 63 := by
  have low := key.le_toInt
  have high := key.toInt_lt
  have least : key.toInt ≠ -2 ^ 63 := by
    rwa [← Int64.toInt_minValue, Ne, Int64.toInt_inj]
  omega

theorem toNat_ofKey {key : Key} (h : key ≠ Int64.minValue) :
    (ofKey key).value.toNat =
      if key.toInt < 0 then key.toInt.natAbs + 2 ^ 63 else key.toInt.natAbs := by
  have small := natAbs_toInt_lt h
  have whole {n : Nat} (h : n < 2 ^ 64) : (UInt64.ofNat n).toNat = n :=
    UInt64.toNat_ofNat_of_lt' h
  have sum : key.toInt.natAbs ||| 0x8000000000000000 = key.toInt.natAbs + 2 ^ 63 := by
    rw [Nat.or_comm, Nat.add_comm]
    exact (Nat.two_pow_add_eq_or_of_lt small 1).symm
  unfold ofKey
  split
  · rw [sum, whole (by omega)]
  · rw [whole (by omega)]

theorem key_ofKey_iff (key : Key) : (ofKey key).key = key ↔ key ≠ Int64.minValue := by
  refine ⟨?_, fun h => ?_⟩
  · rintro kept rfl
    exact key_ne_minValue _ kept
  · have small := natAbs_toInt_lt h
    rw [← Int64.toInt_inj, toInt_key, toNat_ofKey h]
    split <;> split <;> omega

/-- An id survives being written and being stored. It is read from its text, and from a numeral the
number is read that it spells; the key of a row tells the id, and the id tells the key. -/
theorem survives_text_and_key :
    (∀ id : PersistentId, parse? id.hex = some id) ∧
    (∀ s, (parse? s).isSome = true ↔ ∃ digits, IsNumeral (trim s) digits) ∧
    (∀ s digits, IsNumeral (trim s) digits → ∃ id, parse? s = some id ∧
      SpellsHex digits id.value.toNat ∧
      id.hex = String.ofList ((digits.map Char.toUpper).leftpad 16 '0')) ∧
    (∀ id : PersistentId, ofKey id.key = id ↔ id ≠ highBit) ∧
    (∀ a b : PersistentId, a ≠ highBit → b ≠ highBit → a.key = b.key → a = b) ∧
    (∀ id : PersistentId, id.key ≠ Int64.minValue) ∧
    ∀ key, (ofKey key).key = key ↔ key ≠ Int64.minValue := by
  have numeral (s : String) (digits : List Char) (h : IsNumeral (trim s) digits) :
      ∃ id, parse? s = some id ∧ SpellsHex digits id.value.toNat ∧
        id.hex = String.ofList ((digits.map Char.toUpper).leftpad 16 '0') := by
    obtain ⟨n, spells⟩ := h.digits
    rw [← UInt64.toNat_ofNat_of_lt' (h.lt spells)] at spells
    exact ⟨⟨UInt64.ofNat n⟩, ofTrimmed?_eq_some_iff.2 ⟨digits, h, spells⟩, spells,
      h.hex_eq spells⟩
  refine ⟨parse?_hex, fun s => ⟨fun read => ?_, ?_⟩, numeral, ofKey_key_iff,
    fun a b ha hb => eq_of_key_eq ha hb, key_ne_minValue, key_ofKey_iff⟩
  · obtain ⟨id, read⟩ := Option.isSome_iff_exists.1 read
    obtain ⟨digits, found, -⟩ := ofTrimmed?_eq_some_iff.1 read
    exact ⟨digits, found⟩
  · rintro ⟨digits, h⟩
    obtain ⟨id, read, -⟩ := numeral s digits h
    exact Option.isSome_of_eq_some read

end MusicLibrary.PersistentId
