import MusicLibrary.Query.Search

/-! The order in which the tracks of a query come. A query may ask for one, but says nothing of
tracks that are tied, and nothing at all if it asks for none; what it leaves open is decided by the
database. -/

namespace MusicLibrary.Query

/-- Values in the order of a column: no value comes first, numbers before texts. -/
def cellBefore : Option Value → Option Value → Bool
  | none, b => b.isSome
  | some _, none => false
  | some (.integer a), some (.integer b) => decide (a < b)
  | some (.integer _), some (.text _) => true
  | some (.text _), some (.integer _) => false
  | some (.text a), some (.text b) => decide (a < b)

/-- The remainder of a key, with the sign of the key; no value for the modulus zero. -/
def remainderOf (key modulus : Int64) : Option Value :=
  if modulus = 0 then none else some (.integer (Int64.ofInt (key.toInt.tmod modulus.toInt)))

def Order.before (order : Order) (a b : Track) : Bool :=
  match order with
  | .column c false => cellBefore (cell a c) (cell b c)
  | .column c true => cellBefore (cell b c) (cell a c)
  | .keyRemainder modulus =>
    cellBefore (remainderOf a.id.key modulus) (remainderOf b.id.key modulus)
  | .key => decide (a.id.key < b.id.key)

theorem not_lt_of_lt {α : Type} [LT α] [LE α] [Std.IsLinearOrder α] [Std.LawfulOrderLT α] {a b : α}
    (h : a < b) : ¬ b < a := Std.not_lt.mpr (Std.le_of_lt h)

/-- Nothing lies between two values that is neither behind the first nor in front of the second. -/
theorem lt_or_lt_of_lt {α : Type} [LT α] [LE α] [Std.IsLinearOrder α] [Std.LawfulOrderLT α]
    {a b : α} (h : a < b) (c : α) : a < c ∨ c < b := by
  by_cases first : a < c
  · exact .inl first
  · exact .inr (Std.lt_of_le_of_lt (Std.not_lt.mp first) h)

theorem cellBefore_asymm {a b : Option Value} (h : cellBefore a b = true) :
    cellBefore b a = false := by
  match a, b, h with
  | none, some _, _ => rfl
  | some (.integer _), some (.text _), _ => rfl
  | some (.integer _), some (.integer _), h =>
    exact decide_eq_false (not_lt_of_lt (of_decide_eq_true h))
  | some (.text _), some (.text _), h =>
    exact decide_eq_false (not_lt_of_lt (of_decide_eq_true h))

/-- A value between two others comes behind the first or before the second. -/
theorem cellBefore_or {a b : Option Value} (h : cellBefore a b = true) (c : Option Value) :
    cellBefore a c = true ∨ cellBefore c b = true := by
  match a, b, c, h with
  | none, some _, none, _ => exact .inr rfl
  | none, some _, some _, _ => exact .inl rfl
  | some _, some _, none, _ => exact .inr rfl
  | some (.integer _), some (.text _), some (.integer _), _ => exact .inr rfl
  | some (.integer _), some (.text _), some (.text _), _ => exact .inl rfl
  | some (.integer _), some (.integer _), some (.text _), _ => exact .inl rfl
  | some (.text _), some (.text _), some (.integer _), _ => exact .inr rfl
  | some (.integer _), some (.integer _), some (.integer c), h =>
    exact (lt_or_lt_of_lt (of_decide_eq_true h) c).imp decide_eq_true decide_eq_true
  | some (.text _), some (.text _), some (.text c), h =>
    exact (lt_or_lt_of_lt (of_decide_eq_true h) c).imp decide_eq_true decide_eq_true

namespace Order

theorem before_asymm {order : Order} {a b : Track} (h : order.before a b = true) :
    order.before b a = false := by
  cases order with
  | column c descending => cases descending <;> exact cellBefore_asymm h
  | keyRemainder modulus => exact cellBefore_asymm h
  | key => exact decide_eq_false (not_lt_of_lt (of_decide_eq_true h))

theorem before_or {order : Order} {a b : Track} (h : order.before a b = true) (c : Track) :
    order.before a c = true ∨ order.before c b = true := by
  cases order with
  | column column descending =>
    cases descending
    · exact cellBefore_or h _
    · exact (cellBefore_or h _).symm
  | keyRemainder modulus => exact cellBefore_or h _
  | key => exact (lt_or_lt_of_lt (of_decide_eq_true h) c.id.key).imp decide_eq_true decide_eq_true

end Order

/-- Whether a track may come before another one. Tied tracks may come either way. -/
def mayPrecede (query : Query) (a b : Track) : Bool := query.order.all fun order => !order.before b a

theorem mayPrecede_trans (query : Query) (a b c : Track) (first : query.mayPrecede a b = true)
    (second : query.mayPrecede b c = true) : query.mayPrecede a c = true := by
  simp only [mayPrecede, Option.all_eq_true, Bool.not_eq_true'] at *
  refine fun order asked => Bool.eq_false_iff.mpr fun back => ?_
  rcases Order.before_or back b with h | h
  · exact Bool.false_ne_true ((second order asked).symm.trans h)
  · exact Bool.false_ne_true ((first order asked).symm.trans h)

theorem mayPrecede_total (query : Query) (a b : Track) :
    (query.mayPrecede a b || query.mayPrecede b a) = true := by
  rw [mayPrecede, mayPrecede]
  cases query.order with
  | none => rfl
  | some order =>
    cases h : order.before b a with
    | false => simp [h]
    | true => simp [Order.before_asymm h]

/-- How the database goes about a query. Whatever it chooses, the tracks come in the order that the
query asks for. -/
structure Plan where
  /-- The order in which given tracks come as the result of a query. -/
  arrange : Query → Library → List Track → List Track
  perm : ∀ query library tracks, (arrange query library tracks).Perm tracks
  respects : ∀ (query : Query) library tracks,
    (arrange query library tracks).Pairwise (query.mayPrecede · ·)

/-- The plan that leaves tied tracks as they stand in the library. -/
def Plan.stable : Plan where
  arrange query _ tracks :=
    if query.order.isNone then tracks else tracks.mergeSort query.mayPrecede
  perm query _ tracks := by
    split
    · exact .refl _
    · exact List.mergeSort_perm tracks _
  respects query _ tracks := by
    split
    · rename_i none
      exact List.pairwise_of_forall fun a b => by
        rw [mayPrecede, Option.isNone_iff_eq_none.mp none]
        rfl
    · exact List.pairwise_mergeSort query.mayPrecede_trans query.mayPrecede_total tracks

theorem Plan.stable_arrange {query : Query} {tracks : List Track}
    (sorted : tracks.Pairwise (query.mayPrecede · ·)) (library : Library) :
    stable.arrange query library tracks = tracks := by
  simp only [stable]
  split
  · rfl
  · exact List.mergeSort_of_pairwise sorted

end MusicLibrary.Query
