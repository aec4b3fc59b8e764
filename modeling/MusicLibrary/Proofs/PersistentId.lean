import MusicLibrary.PersistentId
import MusicLibrary.Proofs.Text.Numeral

/-! Which ids a store keeps, and what is read from their digits. Only one id does not come back from
a store as it went in, and apart from it no two ids share a key; from its digits every id comes
back. -/

namespace MusicLibrary.PersistentId

/-- The one id that is not kept never comes out of a store. -/
theorem stored_ne_highBit (id : PersistentId) : id.stored ≠ highBit := by
  by_cases h : id = highBit
  · subst h
    decide
  · rw [stored_eq h]
    exact h

@[simp] theorem stored_stored (id : PersistentId) : id.stored.stored = id.stored :=
  stored_eq (stored_ne_highBit id)

theorem key_stored (id : PersistentId) : id.stored.key = id.key := by
  by_cases h : id = highBit
  · subst h
    decide
  · rw [stored_eq h]

theorem eq_of_key_eq {a b : PersistentId} (ha : a ≠ highBit) (hb : b ≠ highBit)
    (h : a.key = b.key) : a = b := by
  have same : a.stored = b.stored := by rw [stored, stored, h]
  rwa [stored_eq ha, stored_eq hb] at same

theorem map_stored_ne_highBit (id : Option PersistentId) : id.map stored ≠ some highBit := by
  cases id with
  | none => simp
  | some id => simpa using stored_ne_highBit id

theorem map_stored_eq {id : Option PersistentId} (h : id ≠ some highBit) : id.map stored = id := by
  cases id with
  | none => rfl
  | some id =>
    rw [Option.map_some, stored_eq]
    rintro rfl
    exact h rfl

theorem map_stored_stored (id : Option PersistentId) :
    (id.map stored).map stored = id.map stored := map_stored_eq (map_stored_ne_highBit id)

theorem map_stored_eq_iff {id : Option PersistentId} :
    id.map stored = id ↔ id ≠ some highBit := by
  constructor
  · intro kept same
    apply map_stored_ne_highBit id
    rw [kept, same]
  · exact map_stored_eq

theorem list_map_stored_eq_iff {ids : List PersistentId} :
    ids.map stored = ids ↔ highBit ∉ ids := by
  constructor
  · intro kept mem
    rw [← kept] at mem
    obtain ⟨id, _, high⟩ := List.mem_map.1 mem
    exact stored_ne_highBit id high
  · intro absent
    have each (id : PersistentId) (mem : id ∈ ids) : id.stored = id := by
      apply stored_eq
      rintro rfl
      exact absent mem
    exact (List.map_congr_left each).trans (List.map_id' ids)

/-- An id is read from its digits. -/
theorem parse?_hex (id : PersistentId) : parse? id.hex = some id := by
  have digit : ∀ c ∈ id.hexChars, Text.isBlank c = false ∧ c.utf8Size = 1 := by
    intro c mem
    obtain ⟨d, lt, rfl⟩ := Text.mem_paddedHex mem
    have plain := Text.hexDigit_plain lt
    exact ⟨plain.1, plain.2.2⟩
  have trimmed : Text.trim id.hex = id.hex := by
    rw [Text.trim, hex, String.toList_ofList, Text.trimChars_eq_self fun c mem => (digit c mem).1]
  have length : id.hexChars.length = 16 :=
    Text.length_paddedHex (by decide) id.value.toNat_lt
  have size : id.hex.utf8ByteSize = 16 := by
    rw [hex, Text.utf8ByteSize_ofList fun c mem => (digit c mem).2, length]
  rw [parse?, trimmed, ofTrimmed?, size, if_neg (by decide), hex, String.toList_ofList, hexChars,
    Text.readUnsigned_paddedHex]
  simp

theorem ofJson?_toJson (id : PersistentId) : ofJson? id.toJson = some id := parse?_hex id

theorem hex_injective : Function.Injective hex := by
  intro a b same
  have read := parse?_hex a
  rw [same, parse?_hex b] at read
  exact (Option.some.inj read).symm

end MusicLibrary.PersistentId
