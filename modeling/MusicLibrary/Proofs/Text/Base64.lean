import MusicLibrary.Text.Base64
import MusicLibrary.Text.Blank

/-! Base64 texts read back to the bytes that they were made of, also where blanks were put in
between their symbols. -/

namespace MusicLibrary.Text

/-- The second text is the first one with blanks put in anywhere. -/
inductive Spaced : List Char → List Char → Prop
  | nil : Spaced [] []
  | keep {s t} (c : Char) (rest : Spaced s t) : Spaced (c :: s) (c :: t)
  | blank {s t c} (h : isBlank c = true) (rest : Spaced s t) : Spaced s (c :: t)

theorem Spaced.refl (s : List Char) : Spaced s s := by
  induction s with
  | nil => exact .nil
  | cons c rest ih => exact .keep c ih

theorem Spaced.filter {s t : List Char} (h : Spaced s t) :
    t.filter (! isBlank ·) = s.filter (! isBlank ·) := by
  induction h with
  | nil => rfl
  | keep c rest ih => simp only [List.filter_cons, ih]
  | blank h rest ih => simpa [List.filter_cons, h] using ih

namespace Base64

theorem symbol_cases : ∀ n ∈ List.range 64,
    symbolValue? (symbol n) = some n ∧ symbol n ≠ '=' := by
  decide

theorem symbolValue?_symbol {n : Nat} (h : n < 64) : symbolValue? (symbol n) = some n :=
  (symbol_cases n (List.mem_range.2 h)).1

theorem symbol_ne_pad {n : Nat} (h : n < 64) : symbol n ≠ '=' :=
  (symbol_cases n (List.mem_range.2 h)).2

theorem isBlank_symbol (n : Nat) : isBlank (symbol n) = false := by
  have plain : ('A' :: alphabet).all (! isBlank ·) = true := by decide
  suffices mem : symbol n ∈ 'A' :: alphabet by
    simpa using List.all_eq_true.1 plain _ mem
  unfold symbol
  rw [List.getD_eq_getElem?_getD]
  cases found : alphabet[n]? with
  | none => exact List.mem_cons_self
  | some c => exact List.mem_cons_of_mem 'A' (List.mem_of_getElem? found)

theorem ofNat_eq {n : Nat} {a : UInt8} (h : n = a.toNat) : UInt8.ofNat n = a := by
  rw [h, UInt8.ofNat_toNat]

theorem decode_encode (bytes : List UInt8) : decode (encode bytes) = some bytes := by
  fun_induction encode bytes with
  | case1 => rfl
  | case2 a =>
    have ha := a.toNat_lt
    have first : UInt8.ofNat (a.toNat / 4 * 4 + a.toNat % 4 * 16 / 16) = a := ofNat_eq (by omega)
    have left : a.toNat % 4 * 16 % 16 = 0 := by omega
    rw [decode, symbolValue?_symbol (by omega), symbolValue?_symbol (by omega)]
    simp only [Option.bind_eq_bind, Option.bind_some, left, if_true, first]
  | case3 a b =>
    have ha := a.toNat_lt
    have hb := b.toNat_lt
    have first : UInt8.ofNat (a.toNat / 4 * 4 + (a.toNat % 4 * 16 + b.toNat / 16) / 16) = a :=
      ofNat_eq (by omega)
    have second : UInt8.ofNat ((a.toNat % 4 * 16 + b.toNat / 16) % 16 * 16 +
        b.toNat % 16 * 4 / 4) = b := ofNat_eq (by omega)
    have left : b.toNat % 16 * 4 % 4 = 0 := by omega
    rw [decode, symbolValue?_symbol (by omega), symbolValue?_symbol (by omega),
      symbolValue?_symbol (by omega)]
    · simp only [Option.bind_eq_bind, Option.bind_some, left, if_true, first, second]
    · exact symbol_ne_pad (by omega)
  | case4 a b c rest ih =>
    have ha := a.toNat_lt
    have hb := b.toNat_lt
    have hc := c.toNat_lt
    have first : UInt8.ofNat (a.toNat / 4 * 4 + (a.toNat % 4 * 16 + b.toNat / 16) / 16) = a :=
      ofNat_eq (by omega)
    have second : UInt8.ofNat ((a.toNat % 4 * 16 + b.toNat / 16) % 16 * 16 +
        (b.toNat % 16 * 4 + c.toNat / 64) / 4) = b := ofNat_eq (by omega)
    have third : UInt8.ofNat ((b.toNat % 16 * 4 + c.toNat / 64) % 4 * 64 + c.toNat % 64) = c :=
      ofNat_eq (by omega)
    rw [decode, symbolValue?_symbol (by omega), symbolValue?_symbol (by omega),
      symbolValue?_symbol (by omega), symbolValue?_symbol (by omega), ih]
    · simp only [Option.bind_eq_bind, Option.bind_some, first, second, third]
      rfl
    · intro _ pad
      exact absurd pad (symbol_ne_pad (by omega))
    · intro pad
      exact absurd pad (symbol_ne_pad (by omega))

theorem isBlank_of_mem_encode {bytes : List UInt8} {c : Char} (h : c ∈ encode bytes) :
    isBlank c = false := by
  fun_induction encode bytes with
  | case1 => cases h
  | case2 | case3 =>
    simp only [List.mem_cons, List.not_mem_nil, or_false] at h
    rcases h with rfl | rfl | rfl | rfl <;> first | exact isBlank_symbol _ | rfl
  | case4 a b c' rest ih =>
    simp only [List.mem_cons] at h
    rcases h with rfl | rfl | rfl | rfl | h
    · exact isBlank_symbol _
    · exact isBlank_symbol _
    · exact isBlank_symbol _
    · exact isBlank_symbol _
    · exact ih h

/-- Blanks in the text of some bytes do not hide them. -/
theorem decode_filter_spaced {bytes : List UInt8} {t : List Char} (h : Spaced (encode bytes) t) :
    decode (t.filter (! isBlank ·)) = some bytes := by
  have plain : (encode bytes).filter (! isBlank ·) = encode bytes := by
    rw [List.filter_eq_self]
    intro c mem
    rw [isBlank_of_mem_encode mem]
    rfl
  rw [h.filter, plain, decode_encode]

end Base64

end MusicLibrary.Text
