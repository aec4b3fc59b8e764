import MusicLibrary.Proofs.Json.RoundTrip

/-! Indented JSON text read back. Blanks between tokens do not count, so the indented text of a
value is scanned to the same tokens as the compact one. -/

namespace MusicLibrary.Json

variable {chars more : List Char} {tokens others : List Token}

/-- A text is scanned to some tokens, if all of them are legible. -/
def ScansTo (chars : List Char) (tokens : List Token) : Prop :=
  (∀ t ∈ tokens, t.IsLegible) → ∀ found rest, EndsNumber rest →
    scanFrom .between found (chars ++ rest) = scanFrom .between (tokens.reverse ++ found) rest

theorem scansTo_token (t : Token) : ScansTo t.chars [t] := by
  intro legible found rest ends
  exact scan_token (legible t List.mem_cons_self) (.inl ends)

/-- A token whose end is plain may stand in front of anything. -/
theorem ScansTo.cons (h : ScansTo chars tokens) {t : Token} (plain : t.isOpenEnded = false) :
    ScansTo (t.chars ++ chars) (t :: tokens) := by
  intro legible found rest ends
  have later := h (fun u mem => legible u (List.mem_cons_of_mem t mem)) (t :: found) rest ends
  rw [List.append_assoc, scan_token (legible t List.mem_cons_self) (.inr plain), later,
    List.reverse_cons, List.append_assoc, List.singleton_append]

theorem ScansTo.append (first : ScansTo chars tokens) (second : ScansTo more others)
    (ends : ∀ rest, EndsNumber (more ++ rest)) : ScansTo (chars ++ more) (tokens ++ others) := by
  intro legible found rest endsRest
  have front := first (fun t mem => legible t (List.mem_append_left others mem)) found _ (ends rest)
  have back := second (fun t mem => legible t (List.mem_append_right tokens mem))
    (tokens.reverse ++ found) rest endsRest
  rw [List.append_assoc, front, back, List.reverse_append, List.append_assoc]

theorem scan_spaces (count : Nat) (found : List Token) (rest : List Char) :
    scanFrom .between found (List.replicate count ' ' ++ rest) = scanFrom .between found rest := by
  induction count with
  | zero => rfl
  | succ count ih => exact ih

/-- The break of a line and the indentation behind it do not count. -/
theorem ScansTo.newLine (h : ScansTo chars tokens) (level : Nat) :
    ScansTo (newLine level ++ chars) tokens := by
  intro legible found rest ends
  have skipped := scan_spaces (2 * level) found (chars ++ rest)
  rw [List.append_assoc]
  exact skipped.trans (h legible found rest ends)

/-- An item or member on a line of its own, behind an opening bracket or a comma, and what follows
it. -/
theorem ScansTo.line (first : ScansTo chars tokens) (second : ScansTo more others)
    (ends : ∀ rest, EndsNumber (more ++ rest)) (level : Nat) {t : Token}
    (plain : t.isOpenEnded = false) :
    ScansTo (t.chars ++ Json.newLine level ++ chars ++ more) (t :: tokens ++ others) := by
  have whole := ((first.append second ends).newLine level).cons plain
  rwa [← List.append_assoc, ← List.append_assoc] at whole

theorem endsNumber_indentedItems (level : Nat) (items : List Json) (rest : List Char) :
    EndsNumber (indentedItems level items ++ rest) := by
  cases items with
  | nil => exact endsNumber_cons (.inr (.inr (.inr rfl))) _
  | cons j items => exact endsNumber_cons (.inl rfl) _

theorem endsNumber_indentedMembers (level : Nat) (members : List (String × Json))
    (rest : List Char) : EndsNumber (indentedMembers level members ++ rest) := by
  cases members with
  | nil => exact endsNumber_cons (.inr (.inr (.inr rfl))) _
  | cons m members => exact endsNumber_cons (.inl rfl) _

/-- A key and its value, with a blank behind the colon. -/
theorem ScansTo.member (h : ScansTo chars tokens) (key : String) :
    ScansTo (quoted key ++ [':', ' '] ++ chars) (.text key :: .colon :: tokens) := by
  have value : ScansTo (' ' :: chars) tokens := h
  have spelled := (value.cons (t := .colon) rfl).cons (t := .text key) rfl
  rwa [List.append_assoc]

mutual

theorem scansTo_indentedChars (level : Nat) : (j : Json) → ScansTo (indentedChars level j) j.tokens
  | .null | .unreadable => scansTo_token .null
  | .boolean b => scansTo_token (.boolean b)
  | .integer n => scansTo_token (.integer n)
  | .decimal literal => scansTo_token (.decimal literal)
  | .text s => scansTo_token (.text s)
  | .array [] => (scansTo_token .closeArray).cons (t := .openArray) rfl
  | .array (j :: rest) =>
    (scansTo_indentedChars (level + 1) j).line (scansTo_indentedItems level rest)
      (endsNumber_indentedItems level rest) (level + 1) (t := .openArray) rfl
  | .object [] => (scansTo_token .closeObject).cons (t := .openObject) rfl
  | .object (m :: rest) =>
    (scansTo_indentedMember level m).line (scansTo_indentedMembers level rest)
      (endsNumber_indentedMembers level rest) (level + 1) (t := .openObject) rfl
termination_by structural j => j

theorem scansTo_indentedItems (level : Nat) :
    (items : List Json) → ScansTo (indentedItems level items) (itemTokens items)
  | [] => (scansTo_token .closeArray).newLine level
  | j :: rest =>
    (scansTo_indentedChars (level + 1) j).line (scansTo_indentedItems level rest)
      (endsNumber_indentedItems level rest) (level + 1) (t := .comma) rfl
termination_by structural items => items

theorem scansTo_indentedMembers (level : Nat) : (members : List (String × Json)) →
    ScansTo (indentedMembers level members) (membersTokens members)
  | [] => (scansTo_token .closeObject).newLine level
  | m :: rest =>
    (scansTo_indentedMember level m).line (scansTo_indentedMembers level rest)
      (endsNumber_indentedMembers level rest) (level + 1) (t := .comma) rfl
termination_by structural members => members

theorem scansTo_indentedMember (level : Nat) :
    (m : String × Json) → ScansTo (indentedMember level m) (memberTokens m)
  | (key, j) => (scansTo_indentedChars (level + 1) j).member key
termination_by structural m => m

end

/-- A value is read from its indented text. -/
theorem parse?_indented {j : Json} (readable : j.isReadable = true)
    (legible : ∀ t ∈ j.tokens, t.IsLegible) : parse? j.indented = some j := by
  have scanned := scansTo_indentedChars 0 j legible [] [] endsNumber_nil
  rw [List.append_nil, List.append_nil] at scanned
  have tokens : tokensOfText j.indented = some j.tokens := by
    rw [tokensOfText, indented, String.toList_ofList, scanned]
    simp [scanFrom, Scan.finish]
  rw [parse?, tokens, Option.bind_some, ofTokens?_tokens readable]

end MusicLibrary.Json
