import MusicLibrary.Record.Lines

/-! The items of a library file are those of its lines that are not blank, in order. In a file that
is text every line is text, so the fault of a line always tells its number. -/

namespace MusicLibrary.RecordLines

/-! Lines of characters and of bytes alike. -/

/-- Puts something in front of the first line. -/
def prepend (front : List α) : List (List α) → List (List α)
  | [] => [front]
  | line :: lines => (front ++ line) :: lines

theorem prepend_prepend (a b : List α) (lines : List (List α)) :
    prepend a (prepend b lines) = prepend (a ++ b) lines := by
  cases lines <;> simp [prepend]

/-- Lines without what ends them: a feed, or a return and a feed. -/
def linesBy [DecidableEq α] (feed ret : α) : List α → List (List α)
  | [] => []
  | a :: rest =>
    if a = feed then [] :: linesBy feed ret rest
    else if a = ret ∧ rest.head? = some feed then linesBy feed ret rest
    else prepend [a] (linesBy feed ret rest)

section

variable [DecidableEq α] {feed ret : α}

@[simp] theorem linesBy_feed (rest : List α) :
    linesBy feed ret (feed :: rest) = [] :: linesBy feed ret rest := by
  rw [linesBy, if_pos rfl]

theorem linesBy_return {rest : List α} (other : ret ≠ feed) (ends : rest.head? = some feed) :
    linesBy feed ret (ret :: rest) = linesBy feed ret rest := by
  rw [linesBy, if_neg other, if_pos ⟨rfl, ends⟩]

theorem linesBy_plain {a : α} {rest : List α} (other : a ≠ feed)
    (kept : ¬ (a = ret ∧ rest.head? = some feed)) :
    linesBy feed ret (a :: rest) = prepend [a] (linesBy feed ret rest) := by
  rw [linesBy, if_neg other, if_neg kept]

theorem linesBy_append_plain {front : List α} (plain : ∀ a ∈ front, a ≠ feed ∧ a ≠ ret)
    (some : front ≠ []) (rest : List α) :
    linesBy feed ret (front ++ rest) = prepend front (linesBy feed ret rest) := by
  induction front with
  | nil => exact absurd rfl some
  | cons a front ih =>
    have own := plain a List.mem_cons_self
    rw [List.cons_append, linesBy_plain own.1 fun h => own.2 h.1]
    cases front with
    | nil => rfl
    | cons b front =>
      rw [ih (fun c mem => plain c (List.mem_cons_of_mem a mem)) (List.cons_ne_nil b front),
        prepend_prepend]
      rfl

end

/-! Bytes. -/

theorem content_cons {byte : UInt8} {line : List UInt8} (other : byte ≠ 10)
    (kept : ¬ (byte = 13 ∧ line = [10])) : content (byte :: line) = byte :: content line := by
  obtain ⟨back, rfl⟩ : ∃ back : List UInt8, line = back.reverse :=
    ⟨line.reverse, line.reverse_reverse.symm⟩
  rcases back with _ | ⟨last, _ | ⟨before, back⟩⟩
  · simp [content, other]
  · by_cases feed : last = 10
    · subst feed
      have alone : byte ≠ 13 := fun same => kept ⟨same, rfl⟩
      simp [content, alone]
    · simp [content, feed]
  · by_cases feed : last = 10
    · by_cases ret : before = 13 <;> simp [content, feed, ret]
    · simp [content, feed]

theorem head?_of_cut {bytes : List UInt8} {lines : List (List UInt8)}
    (h : cut bytes = [10] :: lines) : bytes.head? = some 10 := by
  cases bytes with
  | nil => cases h
  | cons byte rest =>
    rw [cut] at h
    split at h
    · rename_i feed
      rw [feed]
      rfl
    · rename_i other
      cases later : cut rest <;> simp_all [consFirst]

/-- Cutting behind the line feeds and taking off the ends makes the lines. -/
theorem map_content_cut (bytes : List UInt8) : (cut bytes).map content = linesBy 10 13 bytes := by
  induction bytes with
  | nil => rfl
  | cons byte rest ih =>
    by_cases feed : byte = 10
    · subst feed
      rw [cut, if_pos rfl, List.map_cons, ih, linesBy_feed]
      rfl
    rw [cut, if_neg feed]
    by_cases ends : byte = 13 ∧ rest.head? = some 10
    · obtain ⟨rfl, head⟩ := ends
      obtain ⟨rest, rfl⟩ := List.head?_eq_some_iff.1 head
      rw [linesBy_return (by decide) head, ← ih, cut, if_pos rfl]
      rfl
    · rw [linesBy_plain feed ends, ← ih]
      cases later : cut rest with
      | nil => simp [consFirst, prepend, content, feed]
      | cons line lines =>
        have kept : ¬ (byte = 13 ∧ line = [10]) := by
          rintro ⟨rfl, rfl⟩
          exact ends ⟨rfl, head?_of_cut later⟩
        rw [consFirst, List.map_cons, content_cons feed kept]
        rfl

/-! Characters. -/

def encode (cs : List Char) : List UInt8 := cs.flatMap String.utf8EncodeChar

theorem encode_cons (c : Char) (cs : List Char) :
    encode (c :: cs) = String.utf8EncodeChar c ++ encode cs := List.flatMap_cons

theorem map_encode_prepend (front : List Char) (lines : List (List Char)) :
    (prepend front lines).map encode = prepend (encode front) (lines.map encode) := by
  cases lines <;> simp [prepend, encode]

/-- A byte below 128 is a character by itself. -/
theorem toNat_of_mem_utf8EncodeChar {c : Char} {byte : UInt8} (low : byte.toNat < 128)
    (mem : byte ∈ String.utf8EncodeChar c) : c.toNat = byte.toNat := by
  change c.val.toNat = _
  unfold String.utf8EncodeChar at mem
  dsimp only at mem
  split at mem
  · obtain rfl := List.mem_singleton.1 mem
    rw [UInt8.toNat_ofNat']
    omega
  · -- Every byte of a character that takes more than one is 128 or above.
    exfalso
    split at mem
    · simp only [List.mem_cons, List.not_mem_nil, or_false] at mem
      rcases mem with rfl | rfl <;> rw [UInt8.toNat_ofNat'] at low <;> omega
    · split at mem
      · simp only [List.mem_cons, List.not_mem_nil, or_false] at mem
        rcases mem with rfl | rfl | rfl <;> rw [UInt8.toNat_ofNat'] at low <;> omega
      · simp only [List.mem_cons, List.not_mem_nil, or_false] at mem
        rcases mem with rfl | rfl | rfl | rfl <;> rw [UInt8.toNat_ofNat'] at low <;> omega

theorem eq_newline_of_mem {c : Char} (mem : 10 ∈ String.utf8EncodeChar c) : c = '\n' :=
  Char.toNat_inj.1 (toNat_of_mem_utf8EncodeChar (by decide) mem)

theorem eq_return_of_mem {c : Char} (mem : 13 ∈ String.utf8EncodeChar c) : c = '\r' :=
  Char.toNat_inj.1 (toNat_of_mem_utf8EncodeChar (by decide) mem)

theorem head?_encode_eq_newline {cs : List Char} :
    (encode cs).head? = some 10 ↔ cs.head? = some '\n' := by
  cases cs with
  | nil => simp [encode]
  | cons c cs =>
    constructor
    · intro head
      rw [encode_cons, List.head?_append] at head
      cases own : (String.utf8EncodeChar c).head? with
      | none => exact absurd (List.head?_eq_none_iff.1 own) String.utf8EncodeChar_ne_nil
      | some byte =>
        obtain rfl : byte = 10 := by simpa [own] using head
        rw [eq_newline_of_mem (List.mem_of_head? own)]
        rfl
    · intro head
      obtain rfl : c = '\n' := Option.some.inj head
      rfl

/-- The lines of a text are text. -/
theorem linesBy_encode (cs : List Char) :
    linesBy 10 13 (encode cs) = (linesBy '\n' '\r' cs).map encode := by
  induction cs with
  | nil => rfl
  | cons c cs ih =>
    by_cases feed : c = '\n'
    · subst feed
      change linesBy 10 13 (10 :: encode cs) = _
      rw [linesBy_feed, linesBy_feed, ih]
      rfl
    by_cases ret : c = '\r'
    · -- Whether it ends the line is told by the next byte as by the next character.
      subst ret
      change linesBy 10 13 (13 :: encode cs) = _
      by_cases ends : cs.head? = some '\n'
      · rw [linesBy_return (by decide) ends,
          linesBy_return (by decide) (head?_encode_eq_newline.2 ends), ih]
      · rw [linesBy_plain feed fun h => ends h.2,
          linesBy_plain (by decide) fun h => ends (head?_encode_eq_newline.1 h.2), ih,
          map_encode_prepend]
        rfl
    · have plain (byte : UInt8) (mem : byte ∈ String.utf8EncodeChar c) : byte ≠ 10 ∧ byte ≠ 13 := by
        constructor
        · rintro rfl
          exact feed (eq_newline_of_mem mem)
        · rintro rfl
          exact ret (eq_return_of_mem mem)
      rw [encode_cons, linesBy_append_plain plain String.utf8EncodeChar_ne_nil,
        linesBy_plain feed fun h => ret h.1, ih, map_encode_prepend, encode, List.flatMap_singleton]

theorem text?_encode (cs : List Char) : text? (encode cs) = some (String.ofList cs) := by
  have bytes : (⟨(encode cs).toArray⟩ : ByteArray) = (String.ofList cs).toByteArray := by
    apply ByteArray.ext
    simp [encode, List.utf8Encode]
  rw [text?, bytes, String.fromUTF8?, dif_pos (String.ofList cs).isValidUTF8]
  rfl

theorem toList_toUTF8 (text : String) : text.toUTF8.data.toList = encode text.toList := by
  have bytes : text.toUTF8 = text.toList.utf8Encode := by
    rw [← String.toByteArray_ofList, String.ofList_toList]
    rfl
  rw [bytes, List.utf8Encode, List.data_toByteArray]
  rfl

/-! Items. -/

/-- The lines of a text: a line feed, or a carriage return and a line feed, ends a line. -/
def linesOf (text : String) : List String := (linesBy '\n' '\r' text.toList).map String.ofList

/-- What a numbered line says, if it is not blank. -/
def itemOf (line : String × Nat) : Except LineFault LibraryRecord :=
  match (Json.parse? line.1).bind LibraryRecord.ofJson? with
  | some record => .ok record
  | none => .error (.notRecord line.2)

theorem readLine_of_text? {number : Nat} {line : List UInt8} {s : String}
    (text : text? (content line) = some s) :
    readLine number line = if Text.isBlankText s then none else some (itemOf (s, number)) := by
  rw [readLine, text, itemOf]
  dsimp only
  cases (Json.parse? s).bind LibraryRecord.ofJson? <;> rfl

theorem readFrom_eq {lines : List (List UInt8)} {texts : List String}
    (text : lines.map (fun line => text? (content line)) = texts.map some) (number : Nat) :
    readFrom number lines =
      ((texts.zipIdx number).filter fun line => ! Text.isBlankText line.1).map itemOf := by
  induction lines generalizing texts number with
  | nil =>
    obtain rfl := List.map_eq_nil_iff.1 text.symm
    rfl
  | cons line lines ih =>
    cases texts with
    | nil => cases text
    | cons s texts =>
      obtain ⟨own, others⟩ := List.cons.inj text
      rw [readFrom, readLine_of_text? own, List.zipIdx_cons, List.filter_cons, ih others]
      cases Text.isBlankText s <;> rfl

/-- The items of a text are its lines that are not blank, in order and numbered from one on, blank
lines included. -/
theorem read_text (text : String) :
    read text.toUTF8.data.toList =
      (((linesOf text).zipIdx 1).filter fun line => ! Text.isBlankText line.1).map itemOf := by
  apply readFrom_eq
  have lines : (cut text.toUTF8.data.toList).map content =
      (linesBy '\n' '\r' text.toList).map encode := by
    rw [toList_toUTF8, map_content_cut, linesBy_encode]
  calc (cut text.toUTF8.data.toList).map (fun line => text? (content line))
      = ((cut text.toUTF8.data.toList).map content).map text? := by
        rw [List.map_map]
        rfl
    _ = (linesOf text).map some := by
        rw [lines, linesOf, List.map_map, List.map_map]
        exact List.map_congr_left fun line _ => text?_encode line

end MusicLibrary.RecordLines
