import MusicLibrary.Proofs.Json.Number

/-! Scanning what a printer has written. Every token is found again; the end of a number shows only
at what stands behind it, which is a comma, a closing bracket, or the end of the line or of the
text. -/

namespace MusicLibrary.Json

variable {found : List Token}

/-- A rest at which a number ends. -/
def EndsNumber (rest : List Char) : Prop :=
  ∀ c cs, rest = c :: cs → c = ',' ∨ c = ']' ∨ c = '\x7d' ∨ c = '\n'

theorem endsNumber_nil : EndsNumber [] := by
  intro c cs h
  cases h

/-- Tokens whose text tells them, apart from numbers with a point or an exponent. -/
def Token.IsLegible : Token → Prop
  | .integer n => n.natAbs < 2 ^ 64
  | .decimal _ | .unreadableText | .unreadableNumber => False
  | _ => True

/-! Texts. -/

theorem escapeDigit?_lowerHexDigit {d : Nat} (h : d < 16) :
    escapeDigit? (lowerHexDigit d) = some d := by
  have all : ∀ d < 16, escapeDigit? (lowerHexDigit d) = some d := by decide
  exact all d h

theorem scan_escapeDigit (read : PartialText) (left value : Nat) {d : Nat} (h : d < 16)
    (rest : List Char) :
    scanFrom (.unicode read left value) found (lowerHexDigit d :: rest) =
      scanFrom (if left ≤ 1 then .text (read.pushUnit (16 * value + d))
        else .unicode read (left - 1) (16 * value + d)) found rest := by
  rw [scanFrom, Scan.step, escapeDigit?_lowerHexDigit h]
  rfl

/-- A control character is one unit, which is no surrogate. -/
theorem pushUnit_control (seen : List Char) {c : Char} (control : c.toNat < 0x20) :
    PartialText.pushUnit ⟨seen, true, none⟩ c.toNat = ⟨c :: seen, true, none⟩ := by
  have high : ¬ (0xD800 ≤ c.toNat ∧ c.toNat < 0xDC00) := by omega
  have low : ¬ (0xDC00 ≤ c.toNat ∧ c.toNat < 0xE000) := by omega
  simp only [PartialText.pushUnit, if_neg high, if_neg low, Char.ofNat_toNat]

/-- A character is read from its written form, whether it is escaped or stands for itself. -/
theorem scan_quotedChar (seen : List Char) (c : Char) (rest : List Char) :
    scanFrom (.text ⟨seen, true, none⟩) found (quotedChar c ++ rest) =
      scanFrom (.text ⟨c :: seen, true, none⟩) found rest := by
  unfold quotedChar
  split
  · subst c; rfl
  split
  · subst c; rfl
  split
  · subst c; rfl
  split
  · subst c; rfl
  split
  · subst c; rfl
  split
  · subst c; rfl
  split
  · subst c; rfl
  rename_i quote backslash _ _ _ _ _
  split
  · rename_i control
    have start : scanFrom (.text ⟨seen, true, none⟩) found
        (['\x5c', 'u', '0', '0', lowerHexDigit (c.toNat / 16), lowerHexDigit (c.toNat % 16)] ++
          rest) =
        scanFrom (.unicode ⟨seen, true, none⟩ 2 0) found
          (lowerHexDigit (c.toNat / 16) :: lowerHexDigit (c.toNat % 16) :: rest) := rfl
    have value : 16 * (16 * 0 + c.toNat / 16) + c.toNat % 16 = c.toNat := by omega
    rw [start, scan_escapeDigit _ _ _ (by omega), if_neg (by decide),
      scan_escapeDigit _ _ _ (by omega), if_pos (by decide), value, pushUnit_control seen control]
  · rename_i plain
    have step : (Scan.text ⟨seen, true, none⟩).step c =
        some ([], .text ⟨c :: seen, true, none⟩) := by
      rw [Scan.step, if_neg quote, if_neg backslash, if_neg plain]
      rfl
    rw [List.singleton_append, scanFrom, step]
    rfl

theorem scan_quotedChars (seen s rest : List Char) :
    scanFrom (.text ⟨seen, true, none⟩) found (s.flatMap quotedChar ++ '\x22' :: rest) =
      scanFrom .between (.text (String.ofList (seen.reverse ++ s)) :: found) rest := by
  induction s generalizing seen with
  | nil =>
    rw [List.append_nil]
    rfl
  | cons c s ih =>
    rw [List.flatMap_cons, List.append_assoc, scan_quotedChar, ih, List.reverse_cons,
      List.append_assoc, List.singleton_append]

theorem scan_quoted (s : String) (rest : List Char) :
    scanFrom .between found (quoted s ++ rest) = scanFrom .between (.text s :: found) rest := by
  have text := @scan_quotedChars found [] s.toList rest
  rw [List.reverse_nil, List.nil_append, String.ofList_toList] at text
  have whole : quoted s ++ rest = '\x22' :: (s.toList.flatMap quotedChar ++ '\x22' :: rest) := by
    rw [quoted, List.cons_append, List.cons_append, List.append_assoc, List.singleton_append]
  rw [whole]
  exact text

/-! Numbers. -/

theorem scan_endOfNumber {phase : NumberPhase} {seen rest : List Char}
    (complete : phase.mayEnd = true) (ends : EndsNumber rest) :
    scanFrom (.number phase seen) found rest =
      scanFrom .between (numberTokenOfSeen seen :: found) rest := by
  cases rest with
  | nil =>
    have finish : (Scan.number phase seen).finish = some [numberTokenOfSeen seen] := by
      rw [Scan.finish, if_pos complete]
    rw [scanFrom, finish]
    rfl
  | cons c cs =>
    have other : phase.next? c = none ∧ c.isDigit = false := by
      rcases ends c cs rfl with rfl | rfl | rfl | rfl
      · exact ⟨rfl, rfl⟩
      · exact ⟨rfl, rfl⟩
      · exact ⟨rfl, rfl⟩
      · exact ⟨rfl, rfl⟩
    -- The number ends in front of the character, which is then read as if it stood alone.
    have step : (Scan.number phase seen).step c =
        (start c).map fun out => (numberTokenOfSeen seen :: out.1, out.2) := by
      simp only [Scan.step, other.1, other.2, complete, Bool.not_false, Bool.and_self, if_true]
    rw [scanFrom, step, scanFrom, Scan.step]
    cases start c with
    | none => rfl
    | some out => simp

theorem scan_wholeDigits {seen digits rest : List Char} (all : ∀ c ∈ digits, c.isDigit = true)
    (ends : EndsNumber rest) :
    scanFrom (.number .whole seen) found (digits ++ rest) =
      scanFrom .between (numberTokenOfSeen (digits.reverse ++ seen) :: found) rest := by
  induction digits generalizing seen with
  | nil => exact scan_endOfNumber rfl ends
  | cons c digits ih =>
    have next : NumberPhase.next? .whole c = some .whole := by
      rw [NumberPhase.next?, if_pos (all c List.mem_cons_self)]
    have step : (Scan.number .whole seen).step c = some ([], .number .whole (c :: seen)) := by
      rw [Scan.step, next]
    rw [List.cons_append, scanFrom, step, List.reverse_cons, List.append_assoc,
      List.singleton_append]
    exact ih fun d mem => all d (List.mem_cons_of_mem c mem)

theorem scan_digits (n : Nat) {seen rest : List Char} (ends : EndsNumber rest) (state : Scan)
    (first : ∀ c ∈ Nat.toDigits 10 n, state.step c =
      some ([], .number (if c = '0' then .zero else .whole) (c :: seen))) :
    scanFrom state found (Nat.toDigits 10 n ++ rest) = scanFrom .between
      (numberTokenOfSeen ((Nat.toDigits 10 n).reverse ++ seen) :: found) rest := by
  have digit : ∀ c ∈ Nat.toDigits 10 n, c.isDigit = true := fun c mem =>
    Nat.isDigit_of_mem_toDigits (by decide) (by decide) mem
  obtain ⟨d, ds, digits, lead⟩ := Text.toDigits_eq_cons n
  have step := first d (by rw [digits]; exact List.mem_cons_self)
  rw [digits] at digit ⊢
  rw [List.cons_append, scanFrom, step, List.reverse_cons, List.append_assoc,
    List.singleton_append]
  by_cases zero : d = '0'
  · obtain ⟨rfl, -⟩ := lead zero
    rw [if_pos zero]
    exact scan_endOfNumber rfl ends
  · rw [if_neg zero]
    exact scan_wholeDigits (fun c mem => digit c (List.mem_cons_of_mem d mem)) ends

theorem start_digit {c : Char} (h : c.isDigit = true) :
    start c = some ([], .number (if c = '0' then .zero else .whole) [c]) := by
  have other (d : Char) (no : d.isDigit = false) : c ≠ d := by
    rintro rfl
    rw [h] at no
    cases no
  simp [start, h, other ' ' rfl, other '\t' rfl, other '\n' rfl, other '\r' rfl, other '[' rfl,
    other ']' rfl, other '\x7b' rfl, other '\x7d' rfl, other ',' rfl, other ':' rfl,
    other '\x22' rfl, other 't' rfl, other 'f' rfl, other 'n' rfl, other '-' rfl]

theorem scan_integer {n : Int} (small : n.natAbs < 2 ^ 64) {rest : List Char}
    (ends : EndsNumber rest) :
    scanFrom .between found (integerChars n ++ rest) =
      scanFrom .between (.integer n :: found) rest := by
  have token := numberTokenOfSeen_integerChars small
  rw [integerChars] at token ⊢
  split
  · rename_i negative
    rw [if_pos negative, List.reverse_cons] at token
    rw [← token]
    apply scan_digits n.natAbs ends (.number .sign ['-'])
    intro c mem
    have digit := Nat.isDigit_of_mem_toDigits (by decide) (by decide) mem
    rw [Scan.step, NumberPhase.next?, if_pos digit]
  · rename_i positive
    rw [if_neg positive] at token
    rw [← token, ← List.append_nil (Nat.toDigits 10 n.natAbs).reverse]
    apply scan_digits n.natAbs ends .between
    intro c mem
    exact start_digit (Nat.isDigit_of_mem_toDigits (by decide) (by decide) mem)

/-! All tokens. -/

/-- Whether the text of a token could go on. -/
def Token.isOpenEnded : Token → Bool
  | .integer _ => true
  | _ => false

/-- A legible token is found again, a number if it ends where its text ends. -/
theorem scan_token {t : Token} (legible : t.IsLegible) {rest : List Char}
    (ends : EndsNumber rest ∨ t.isOpenEnded = false) :
    scanFrom .between found (t.chars ++ rest) = scanFrom .between (t :: found) rest := by
  cases t with
  | openArray => rfl
  | closeArray => rfl
  | openObject => rfl
  | closeObject => rfl
  | comma => rfl
  | colon => rfl
  | null => rfl
  | boolean b => cases b <;> rfl
  | integer n =>
    rcases ends with ends | other
    · exact scan_integer legible ends
    · cases other
  | decimal literal => exact legible.elim
  | text s => exact scan_quoted s rest
  | unreadableText => exact legible.elim
  | unreadableNumber => exact legible.elim

end MusicLibrary.Json
