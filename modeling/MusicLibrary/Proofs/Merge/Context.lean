import MusicLibrary.Proofs.Merge.Patch

/-! The context of hunks. A hunk starts and ends with items that it keeps; only at the ends of the
two lists can there be none. What it does not show of the items around it does not count. -/

namespace MusicLibrary.Merge

variable {α : Type}

/-- The hunk starts with an item that it keeps. -/
def Hunk.Opens (h : Hunk α) : Prop :=
  ∃ item before after, h.before = item :: before ∧ h.after = item :: after

/-- The hunk ends with an item that it keeps. -/
def Hunk.Closes (h : Hunk α) : Prop :=
  ∃ item before after, h.before = before ++ [item] ∧ h.after = after ++ [item]

theorem Hunk.Opens.before_ne_nil {h : Hunk α} (opens : h.Opens) : h.before ≠ [] := by
  obtain ⟨item, before, after, eq, -⟩ := opens
  rw [eq]
  exact List.cons_ne_nil item before

theorem Hunk.Closes.before_ne_nil {h : Hunk α} (closes : h.Closes) : h.before ≠ [] := by
  obtain ⟨item, before, after, eq, -⟩ := closes
  rw [eq]
  exact List.append_ne_nil_of_right_ne_nil before (List.cons_ne_nil item [])

/-- What is shown in front of two lists opens a hunk. -/
theorem opens_of_shown {shown : List α} (nonempty : shown ≠ []) (skipped before after : List α) :
    (Hunk.mk skipped (shown ++ before) (shown ++ after)).Opens := by
  obtain ⟨item, rest, rfl⟩ := List.exists_cons_of_ne_nil nonempty
  exact ⟨item, rest ++ before, rest ++ after, rfl, rfl⟩

theorem closes_of_shown {shown : List α} (nonempty : shown ≠ []) (skipped before after : List α) :
    (Hunk.mk skipped (before ++ shown) (after ++ shown)).Closes := by
  refine ⟨shown.getLast nonempty, before ++ shown.dropLast, after ++ shown.dropLast, ?_, ?_⟩
  · rw [List.append_assoc, List.dropLast_concat_getLast]
  · rw [List.append_assoc, List.dropLast_concat_getLast]

/-- A hunk that starts with an item goes on to do so whatever is put behind it. -/
theorem Hunk.Opens.append {h : Hunk α} (opens : h.Opens) (before after : List α) :
    (Hunk.mk h.skipped (h.before ++ before) (h.after ++ after)).Opens := by
  obtain ⟨item, first, second, left, right⟩ := opens
  refine ⟨item, first ++ before, second ++ after, ?_, ?_⟩
  · rw [left, List.cons_append]
  · rw [right, List.cons_append]

theorem lead_ne_nil {items : List α} (nonempty : items ≠ []) : lead items ≠ [] := by
  have pos := List.length_pos_iff.2 nonempty
  rw [lead, Ne, List.drop_eq_nil_iff, contextLength]
  omega

theorem trail_ne_nil {items : List α} (nonempty : items ≠ []) : trail items ≠ [] := by
  have pos := List.length_pos_iff.2 nonempty
  rw [trail, Ne, List.take_eq_nil_iff]
  rintro (none | nil)
  · exact absurd none (by decide)
  · exact nonempty nil

theorem gap_ne_nil_of_not_isClose {b : Block α} {later : List (Block α)} {tail : List α}
    (h : isClose b later tail = false) : b.gap ≠ [] := by
  have wide := wide_of_not_isClose h
  apply List.ne_nil_of_length_pos
  rw [contextLength] at wide
  omega

/-- If the first hunk starts with an item that it keeps, all of them do: between two of them a gap
is shown. -/
theorem opens_of_mem_hunksFrom {tail : List α} {hunk h : Hunk α} {blocks : List (Block α)}
    (opens : hunk.Opens) (mem : h ∈ hunksFrom tail hunk blocks) : h.Opens := by
  induction blocks generalizing hunk with
  | nil =>
    rw [hunksFrom, List.mem_singleton] at mem
    rw [mem]
    exact opens.append _ _
  | cons b later ih =>
    rw [hunksFrom] at mem
    split at mem
    · apply ih _ mem
      rw [List.append_assoc, List.append_assoc]
      exact opens.append _ _
    · rename_i apart
      rcases List.mem_cons.1 mem with rfl | mem
      · exact opens.append _ _
      · apply ih _ mem
        apply opens_of_shown
        exact lead_ne_nil (gap_ne_nil_of_not_isClose (Bool.eq_false_iff.2 apart))

/-- Behind the first hunk all start with an item that they keep, and the first one skips what it was
begun with. -/
theorem hunksFrom_eq_cons {tail : List α} {hunk first : Hunk α} {blocks : List (Block α)}
    {others : List (Hunk α)} (eq : hunksFrom tail hunk blocks = first :: others) :
    first.skipped = hunk.skipped ∧ ∀ h ∈ others, h.Opens := by
  induction blocks generalizing hunk with
  | nil =>
    rw [hunksFrom, List.cons.injEq] at eq
    obtain ⟨rfl, rfl⟩ := eq
    exact ⟨rfl, fun h mem => absurd mem List.not_mem_nil⟩
  | cons b later ih =>
    rw [hunksFrom] at eq
    split at eq
    · have same := ih eq
      exact same
    · rename_i apart
      rw [List.cons.injEq] at eq
      obtain ⟨rfl, rfl⟩ := eq
      refine ⟨rfl, fun h mem => opens_of_mem_hunksFrom ?_ mem⟩
      apply opens_of_shown
      exact lead_ne_nil (gap_ne_nil_of_not_isClose (Bool.eq_false_iff.2 apart))

/-- With kept items in front of the first block, every hunk starts with one. -/
theorem opens_of_mem_hunks {tail : List α} {b : Block α} {later : List (Block α)} {h : Hunk α}
    (nonempty : b.gap ≠ []) (mem : h ∈ hunks tail (b :: later)) : h.Opens :=
  opens_of_mem_hunksFrom (opens_of_shown (lead_ne_nil nonempty) _ _ _) mem

/-- A hunk starts with an item that it keeps, or it is the first one and nothing is in front of
it. -/
theorem opens_of_hunks {tail : List α} {blocks : List (Block α)} {front back : List (Hunk α)}
    {h : Hunk α} (place : hunks tail blocks = front ++ h :: back) :
    h.Opens ∨ front = [] ∧ h.skipped = [] := by
  cases blocks with
  | nil => exact absurd place.symm (List.append_ne_nil_of_right_ne_nil _ (List.cons_ne_nil _ _))
  | cons b later =>
    cases front with
    | nil =>
      by_cases none : b.gap = []
      · right
        refine ⟨rfl, (hunksFrom_eq_cons place).1.trans ?_⟩
        rw [none]
        rfl
      · left
        apply opens_of_mem_hunks none
        rw [place]
        exact List.mem_cons_self
    | cons first front =>
      left
      apply (hunksFrom_eq_cons place).2 h
      exact List.mem_append_right front List.mem_cons_self

theorem closes_of_hunksFrom {tail : List α} {hunk h : Hunk α} {blocks : List (Block α)}
    {front back : List (Hunk α)} (place : hunksFrom tail hunk blocks = front ++ h :: back) :
    h.Closes ∨ back = [] ∧ tail = [] := by
  induction blocks generalizing hunk front with
  | nil =>
    rw [hunksFrom, List.singleton_eq_append_iff] at place
    obtain ⟨-, eq⟩ | ⟨-, eq⟩ := place
    · rw [List.cons.injEq] at eq
      obtain ⟨rfl, rfl⟩ := eq
      by_cases none : tail = []
      · exact .inr ⟨rfl, none⟩
      · exact .inl (closes_of_shown (trail_ne_nil none) _ _ _)
    · cases eq
  | cons b later ih =>
    rw [hunksFrom] at place
    split at place
    · exact ih place
    · rename_i apart
      cases front with
      | nil =>
        rw [List.nil_append, List.cons.injEq] at place
        obtain ⟨rfl, -⟩ := place
        left
        apply closes_of_shown
        exact trail_ne_nil (gap_ne_nil_of_not_isClose (Bool.eq_false_iff.2 apart))
      | cons first front =>
        rw [List.cons_append, List.cons.injEq] at place
        exact ih place.2

/-- A hunk ends with an item that it keeps, or it is the last one and nothing is behind it. -/
theorem closes_of_hunks {tail : List α} {blocks : List (Block α)} {front back : List (Hunk α)}
    {h : Hunk α} (place : hunks tail blocks = front ++ h :: back) :
    h.Closes ∨ back = [] ∧ tail = [] := by
  cases blocks with
  | nil => exact absurd place.symm (List.append_ne_nil_of_right_ne_nil _ (List.cons_ne_nil _ _))
  | cons b later => exact closes_of_hunksFrom place

/-- With kept items behind the last block, every hunk ends with one. -/
theorem closes_of_mem_hunks {tail : List α} {blocks : List (Block α)} {h : Hunk α}
    (nonempty : tail ≠ []) (mem : h ∈ hunks tail blocks) : h.Closes := by
  obtain ⟨front, back, place⟩ := List.append_of_mem mem
  rcases closes_of_hunks place with closes | ⟨-, none⟩
  · exact closes
  · exact absurd none nonempty

/-! What a hunk does not show. -/

theorem lead_append {front items : List α} (wide : contextLength ≤ items.length) :
    lead (front ++ items) = lead items := by
  have start : (front ++ items).length - contextLength =
      front.length + (items.length - contextLength) := by
    rw [List.length_append]
    omega
  rw [lead, start, List.drop_length_add_append, lead]

theorem dropEnd_append {front items : List α} (wide : contextLength ≤ items.length) :
    dropEnd (front ++ items) contextLength = front ++ dropEnd items contextLength := by
  have count : (front ++ items).length - contextLength =
      front.length + (items.length - contextLength) := by
    rw [List.length_append]
    omega
  rw [dropEnd, count, List.take_length_add_append, dropEnd]

/-- The same hunks with more items in front of the first one. -/
def behind (front : List α) : List (Hunk α) → List (Hunk α)
  | [] => []
  | h :: rest => { h with skipped := front ++ h.skipped } :: rest

theorem hunksFrom_behind (front tail : List α) (hunk : Hunk α) (blocks : List (Block α)) :
    hunksFrom tail { hunk with skipped := front ++ hunk.skipped } blocks =
      behind front (hunksFrom tail hunk blocks) := by
  induction blocks generalizing hunk with
  | nil => rfl
  | cons b later ih =>
    rw [hunksFrom, hunksFrom]
    split
    · exact ih ⟨hunk.skipped, hunk.before ++ b.gap ++ b.removed, hunk.after ++ b.gap ++ b.added⟩
    · rfl

/-- Far enough in front of the first block, items are skipped and change nothing else. -/
theorem hunks_behind {front gap : List α} (wide : contextLength ≤ gap.length)
    (tail removed added : List α) (later : List (Block α)) :
    hunks tail (⟨front ++ gap, removed, added⟩ :: later) =
      behind front (hunks tail (⟨gap, removed, added⟩ :: later)) := by
  rw [hunks, hunks, lead_append wide, dropEnd_append wide]
  exact hunksFrom_behind front tail
    ⟨dropEnd gap contextLength, lead gap ++ removed, lead gap ++ added⟩ later

theorem hunksFrom_append_tail {tail : List α} (wide : contextLength ≤ tail.length)
    (more : List α) (hunk : Hunk α) (blocks : List (Block α)) :
    hunksFrom (tail ++ more) hunk blocks = hunksFrom tail hunk blocks := by
  induction blocks generalizing hunk with
  | nil => rw [hunksFrom, hunksFrom, trail, trail, List.take_append_of_le_length wide]
  | cons b later ih =>
    -- That something is behind the blocks is all that a gap can ask about it.
    have starts : ∃ item rest, tail = item :: rest := by
      apply List.exists_cons_of_length_pos
      rw [contextLength] at wide
      omega
    obtain ⟨item, rest, rfl⟩ := starts
    have full (rest : List α) : (b.removed ++ later.flatMap (fun b => b.gap ++ b.removed) ++
        item :: rest).isEmpty = false := by
      simp [List.isEmpty_eq_false_iff]
    have close : isClose b later (item :: rest ++ more) = isClose b later (item :: rest) := by
      rw [isClose, isClose, List.cons_append, full, full]
    rw [hunksFrom, hunksFrom, close, ih, ih]

/-- Far enough behind the last block, items change nothing. -/
theorem hunks_append_tail {tail : List α} (wide : contextLength ≤ tail.length) (more : List α)
    (blocks : List (Block α)) : hunks (tail ++ more) blocks = hunks tail blocks := by
  cases blocks with
  | nil => rfl
  | cons b later => exact hunksFrom_append_tail wide more _ later

theorem applyHunks_behind [DecidableEq α] (front : List α) (image : List (Line α)) (done : Nat)
    (hunks : List (Hunk α)) :
    applyHunks image done (behind front hunks) =
      applyHunks image (done + front.length) hunks := by
  cases hunks with
  | nil => rfl
  | cons h rest =>
    rw [behind, applyHunks, applyHunks]
    simp only [List.length_append, Nat.add_assoc]
    rfl

end MusicLibrary.Merge
