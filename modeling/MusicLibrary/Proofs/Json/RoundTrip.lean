import MusicLibrary.Json.Parser
import MusicLibrary.Proofs.Json.Token

/-! JSON text read back. The compact text of a value is scanned to the tokens that it was written
from, and the parser puts these together again; so a value without decimals comes back as it
was. -/

namespace MusicLibrary.Json

/-! Scanning. -/

/-- The text of some tokens is scanned to the same tokens, if all of them are legible. -/
def Spells (tokens : List Token) : Prop :=
  (∀ t ∈ tokens, t.IsLegible) → ∀ found rest, EndsNumber rest →
    scanFrom .between found (tokens.flatMap Token.chars ++ rest) =
      scanFrom .between (tokens.reverse ++ found) rest

theorem spells_single (t : Token) : Spells [t] := by
  intro legible found rest ends
  rw [List.flatMap_singleton]
  exact scan_token (legible t List.mem_cons_self) (.inl ends)

/-- A token whose end is plain may stand in front of anything. -/
theorem Spells.cons {tokens : List Token} (h : Spells tokens) {t : Token}
    (plain : t.isOpenEnded = false) : Spells (t :: tokens) := by
  intro legible found rest ends
  have later := h (fun u mem => legible u (List.mem_cons_of_mem t mem)) (t :: found) rest ends
  rw [List.flatMap_cons, List.append_assoc, scan_token (legible t List.mem_cons_self) (.inr plain),
    later, List.reverse_cons, List.append_assoc, List.singleton_append]

theorem Spells.append {front back : List Token} (hf : Spells front) (hb : Spells back)
    (ends : ∀ rest, EndsNumber (back.flatMap Token.chars ++ rest)) : Spells (front ++ back) := by
  intro legible found rest endsRest
  have first := hf (fun t mem => legible t (List.mem_append_left back mem)) found _ (ends rest)
  have second := hb (fun t mem => legible t (List.mem_append_right front mem))
    (front.reverse ++ found) rest endsRest
  rw [List.flatMap_append, List.append_assoc, first, second, List.reverse_append,
    List.append_assoc]

theorem endsNumber_cons {c : Char} (ends : c = ',' ∨ c = ']' ∨ c = '\x7d' ∨ c = '\n')
    (rest : List Char) : EndsNumber (c :: rest) := by
  intro d ds h
  rw [List.cons.injEq] at h
  rw [← h.1]
  exact ends

theorem endsNumber_itemTokens (items : List Json) (rest : List Char) :
    EndsNumber ((itemTokens items).flatMap Token.chars ++ rest) := by
  cases items with
  | nil => exact endsNumber_cons (.inr (.inl rfl)) _
  | cons j items => exact endsNumber_cons (.inl rfl) _

theorem endsNumber_membersTokens (members : List (String × Json)) (rest : List Char) :
    EndsNumber ((membersTokens members).flatMap Token.chars ++ rest) := by
  cases members with
  | nil => exact endsNumber_cons (.inr (.inr (.inl rfl))) _
  | cons m members => exact endsNumber_cons (.inl rfl) _

mutual

theorem spells_tokens : (j : Json) → Spells j.tokens
  | .null | .boolean _ | .integer _ | .decimal _ | .text _ | .unreadable => spells_single _
  | .array [] => (spells_single _).cons rfl
  | .array (j :: rest) => by
    apply Spells.cons _ rfl
    exact (spells_tokens j).append (spells_itemTokens rest) (endsNumber_itemTokens rest)
  | .object [] => (spells_single _).cons rfl
  | .object (m :: rest) => by
    apply Spells.cons _ rfl
    exact (spells_memberTokens m).append (spells_membersTokens rest) (endsNumber_membersTokens rest)
termination_by structural j => j

theorem spells_itemTokens : (items : List Json) → Spells (itemTokens items)
  | [] => spells_single _
  | j :: rest => by
    apply Spells.cons _ rfl
    exact (spells_tokens j).append (spells_itemTokens rest) (endsNumber_itemTokens rest)
termination_by structural items => items

theorem spells_membersTokens : (members : List (String × Json)) → Spells (membersTokens members)
  | [] => spells_single _
  | m :: rest => by
    apply Spells.cons _ rfl
    exact (spells_memberTokens m).append (spells_membersTokens rest) (endsNumber_membersTokens rest)
termination_by structural members => members

theorem spells_memberTokens : (m : String × Json) → Spells (memberTokens m)
  | (_, j) => ((spells_tokens j).cons rfl).cons rfl
termination_by structural m => m

end

/-- The compact text of a value is scanned to its tokens. -/
theorem tokensOfText_compact {j : Json} (legible : ∀ t ∈ j.tokens, t.IsLegible) :
    tokensOfText j.compact = some j.tokens := by
  have whole := spells_tokens j legible [] [] endsNumber_nil
  rw [List.append_nil, List.append_nil] at whole
  rw [tokensOfText, compact, String.toList_ofList, compactChars, whole]
  simp [scanFrom, Scan.finish]

/-! Parsing. -/

/-- An array that has items starts like any other place for a value. -/
theorem foldlM_firstItem (frames : List Frame) {t : Token} (item : t ≠ .closeArray)
    (more : List Token) :
    (t :: more).foldlM Machine.step ⟨frames, .firstItem⟩ =
      (t :: more).foldlM Machine.step ⟨frames, .value⟩ := by
  rw [List.foldlM_cons, List.foldlM_cons]
  cases t with
  | closeArray => exact absurd rfl item
  | _ => rfl

/-- No value starts with a closing bracket. -/
theorem tokens_eq_cons (j : Json) : ∃ t more, j.tokens = t :: more ∧ t ≠ .closeArray := by
  match j with
  | .null | .boolean _ | .integer _ | .decimal _ | .text _ | .unreadable =>
    exact ⟨_, [], rfl, nofun⟩
  | .array [] | .object [] => exact ⟨_, _, rfl, nofun⟩
  | .array (j :: rest) => exact ⟨_, j.tokens ++ itemTokens rest, rfl, nofun⟩
  | .object (m :: rest) => exact ⟨_, memberTokens m ++ membersTokens rest, rfl, nofun⟩

/-- An object whose keys all have a value is complete. -/
theorem finish_members (members : List (String × Json)) :
    PartialObject.finish (members.map fun m => (some m.1, m.2)).reverse = .object members := by
  have all : (members.map fun m => (some m.1, m.2)).mapM
      (fun m : Option String × Json => m.1.map fun key => (key, m.2)) = some members := by
    induction members with
    | nil => rfl
    | cons m rest ih =>
      rw [List.map_cons, List.mapM_cons, ih]
      rfl
  rw [PartialObject.finish, List.reverse_reverse, all]

mutual

/-- The tokens of a value are put together to the value. -/
theorem parse_tokens (j : Json) (readable : j.isReadable = true) (frames : List Frame) :
    j.tokens.foldlM Machine.step ⟨frames, .value⟩ = some ⟨frames, .rest j⟩ := by
  match j with
  | .null | .boolean _ | .integer _ | .decimal _ | .text _ => rfl
  | .unreadable => cases readable
  | .array [] | .object [] => rfl
  | .array (j :: rest) =>
    rw [isReadable, areReadable, Bool.and_eq_true] at readable
    obtain ⟨t, more, first, item⟩ := tokens_eq_cons j
    have value := parse_tokens j readable.1 (.array [] :: frames)
    rw [first, ← foldlM_firstItem _ item, ← first] at value
    have opened : (tokens (.array (j :: rest))).foldlM Machine.step ⟨frames, .value⟩ =
        (j.tokens ++ itemTokens rest).foldlM Machine.step ⟨.array [] :: frames, .firstItem⟩ := rfl
    rw [opened, List.foldlM_append, value]
    exact parse_itemTokens rest readable.2 frames [] j
  | .object (m :: rest) =>
    rw [isReadable, membersReadable, Bool.and_eq_true] at readable
    have opened : (tokens (.object (m :: rest))).foldlM Machine.step ⟨frames, .value⟩ =
        (memberTokens m ++ membersTokens rest).foldlM Machine.step ⟨frames, .firstKey⟩ := rfl
    have key : (memberTokens m).foldlM Machine.step ⟨frames, .firstKey⟩ =
        (memberTokens m).foldlM Machine.step ⟨frames, .key []⟩ := by
      cases m
      rfl
    rw [opened, List.foldlM_append, key, parse_memberTokens m readable.1 frames []]
    exact parse_membersTokens rest readable.2 frames [] m
termination_by structural j

/-- The items behind one item join it in its array. -/
theorem parse_itemTokens (items : List Json) (readable : areReadable items = true)
    (frames : List Frame) (before : List Json) (last : Json) :
    (itemTokens items).foldlM Machine.step ⟨.array before.reverse :: frames, .rest last⟩ =
      some ⟨frames, .rest (.array (before ++ last :: items))⟩ := by
  match items with
  | [] =>
    have closed : (itemTokens []).foldlM Machine.step
        ⟨.array before.reverse :: frames, .rest last⟩ =
        some ⟨frames, .rest (.array (last :: before.reverse).reverse)⟩ := rfl
    rw [closed, List.reverse_cons, List.reverse_reverse]
  | j :: rest =>
    rw [areReadable, Bool.and_eq_true] at readable
    have next : (itemTokens (j :: rest)).foldlM Machine.step
        ⟨.array before.reverse :: frames, .rest last⟩ =
        (j.tokens ++ itemTokens rest).foldlM Machine.step
          ⟨.array (last :: before.reverse) :: frames, .value⟩ := rfl
    have later := parse_itemTokens rest readable.2 frames (before ++ [last]) j
    rw [List.reverse_append, List.reverse_singleton, List.singleton_append, List.append_assoc,
      List.singleton_append] at later
    rw [next, List.foldlM_append, parse_tokens j readable.1]
    exact later
termination_by structural items

/-- The members behind one member join it in its object. -/
theorem parse_membersTokens (members : List (String × Json))
    (readable : membersReadable members = true) (frames : List Frame)
    (before : List (String × Json)) (last : String × Json) :
    (membersTokens members).foldlM Machine.step
        ⟨.member (before.map fun m => (some m.1, m.2)).reverse (some last.1) :: frames,
          .rest last.2⟩ =
      some ⟨frames, .rest (.object (before ++ last :: members))⟩ := by
  match members with
  | [] =>
    have closed : (membersTokens []).foldlM Machine.step
        ⟨.member (before.map fun m => (some m.1, m.2)).reverse (some last.1) :: frames,
          .rest last.2⟩ =
        some ⟨frames, .rest (PartialObject.finish
          ((some last.1, last.2) :: (before.map fun m => (some m.1, m.2)).reverse))⟩ := rfl
    have all := finish_members (before ++ [last])
    rw [List.map_append, List.map_singleton, List.reverse_append, List.reverse_singleton,
      List.singleton_append] at all
    rw [closed, all]
  | m :: rest =>
    rw [membersReadable, Bool.and_eq_true] at readable
    have next : (membersTokens (m :: rest)).foldlM Machine.step
        ⟨.member (before.map fun m => (some m.1, m.2)).reverse (some last.1) :: frames,
          .rest last.2⟩ =
        (memberTokens m ++ membersTokens rest).foldlM Machine.step
          ⟨frames, .key ((some last.1, last.2) ::
            (before.map fun m => (some m.1, m.2)).reverse)⟩ := rfl
    have later := parse_membersTokens rest readable.2 frames (before ++ [last]) m
    rw [List.map_append, List.map_singleton, List.reverse_append, List.reverse_singleton,
      List.singleton_append, List.append_assoc, List.singleton_append] at later
    rw [next, List.foldlM_append, parse_memberTokens m readable.1]
    exact later
termination_by structural members

theorem parse_memberTokens (m : String × Json) (readable : memberReadable m = true)
    (frames : List Frame) (members : PartialObject) :
    (memberTokens m).foldlM Machine.step ⟨frames, .key members⟩ =
      some ⟨.member members (some m.1) :: frames, .rest m.2⟩ := by
  match m with
  | (key, j) => exact parse_tokens j readable (.member members (some key) :: frames)
termination_by structural m

end

theorem ofTokens?_tokens {j : Json} (readable : j.isReadable = true) :
    ofTokens? j.tokens = some j := by
  rw [ofTokens?, parse_tokens j readable []]
  rfl

/-! Arrays. -/

theorem isReadable_array {items : List Json} (each : ∀ j ∈ items, j.isReadable = true) :
    (array items).isReadable = true := by
  rw [isReadable]
  induction items with
  | nil => rfl
  | cons j rest ih =>
    rw [areReadable, Bool.and_eq_true]
    exact ⟨each j List.mem_cons_self, ih fun i mem => each i (List.mem_cons_of_mem _ mem)⟩

theorem legible_itemTokens {items : List Json}
    (each : ∀ j ∈ items, ∀ t ∈ j.tokens, t.IsLegible) : ∀ t ∈ itemTokens items, t.IsLegible := by
  induction items with
  | nil =>
    intro t mem
    rw [List.mem_singleton.1 mem]
    trivial
  | cons j rest ih =>
    intro t mem
    rw [itemTokens, List.cons_append, List.mem_cons, List.mem_append] at mem
    rcases mem with rfl | first | later
    · trivial
    · exact each j List.mem_cons_self t first
    · exact ih (fun i mem => each i (List.mem_cons_of_mem j mem)) t later

theorem legible_array {items : List Json} (each : ∀ j ∈ items, ∀ t ∈ j.tokens, t.IsLegible) :
    ∀ t ∈ (array items).tokens, t.IsLegible := by
  cases items with
  | nil =>
    intro t mem
    rw [tokens, List.mem_cons, List.mem_singleton] at mem
    rcases mem with rfl | rfl
    · trivial
    · trivial
  | cons j rest =>
    intro t mem
    rw [tokens, List.cons_append, List.mem_cons] at mem
    rcases mem with rfl | mem
    · trivial
    · apply legible_itemTokens each
      rw [itemTokens, List.cons_append]
      exact List.mem_cons_of_mem .comma mem

/-! Objects. -/

theorem isReadable_object {members : List (String × Json)}
    (each : ∀ m ∈ members, m.2.isReadable = true) : (object members).isReadable = true := by
  rw [isReadable]
  induction members with
  | nil => rfl
  | cons m rest ih =>
    obtain ⟨key, j⟩ := m
    rw [membersReadable, Bool.and_eq_true]
    exact ⟨each _ List.mem_cons_self, ih fun n mem => each n (List.mem_cons_of_mem _ mem)⟩

theorem legible_memberTokens {m : String × Json} (h : ∀ t ∈ m.2.tokens, t.IsLegible) :
    ∀ t ∈ memberTokens m, t.IsLegible := by
  obtain ⟨key, j⟩ := m
  intro t mem
  rw [memberTokens, List.mem_cons, List.mem_cons] at mem
  rcases mem with rfl | rfl | mem
  · trivial
  · trivial
  · exact h t mem

theorem legible_membersTokens {members : List (String × Json)}
    (each : ∀ m ∈ members, ∀ t ∈ m.2.tokens, t.IsLegible) :
    ∀ t ∈ membersTokens members, t.IsLegible := by
  induction members with
  | nil =>
    intro t mem
    rw [List.mem_singleton.1 mem]
    trivial
  | cons m rest ih =>
    intro t mem
    rw [membersTokens, List.cons_append, List.mem_cons, List.mem_append] at mem
    rcases mem with rfl | first | later
    · trivial
    · exact legible_memberTokens (each m List.mem_cons_self) t first
    · exact ih (fun n mem => each n (List.mem_cons_of_mem m mem)) t later

theorem legible_object {members : List (String × Json)}
    (each : ∀ m ∈ members, ∀ t ∈ m.2.tokens, t.IsLegible) :
    ∀ t ∈ (object members).tokens, t.IsLegible := by
  cases members with
  | nil =>
    intro t mem
    rw [tokens, List.mem_cons, List.mem_singleton] at mem
    rcases mem with rfl | rfl
    · trivial
    · trivial
  | cons m rest =>
    -- The first member is written like the others, with a bracket in front instead of a comma.
    intro t mem
    rw [tokens, List.cons_append, List.mem_cons] at mem
    rcases mem with rfl | mem
    · trivial
    · apply legible_membersTokens each
      rw [membersTokens, List.cons_append]
      exact List.mem_cons_of_mem .comma mem

/-- A value is read from its compact text. -/
theorem parse?_compact {j : Json} (readable : j.isReadable = true)
    (legible : ∀ t ∈ j.tokens, t.IsLegible) : parse? j.compact = some j := by
  rw [parse?, tokensOfText_compact legible, Option.bind_some, ofTokens?_tokens readable]

end MusicLibrary.Json
