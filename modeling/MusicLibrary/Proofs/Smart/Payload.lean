import MusicLibrary.Smart.CriteriaRecord

/-! Numbers and dates through the slots of a payload. What the slots can hold comes back from them:
three unsigned numbers or dates at most, or an offset in whole seconds. -/

namespace MusicLibrary.Smart

namespace Slots

@[simp] theorem decode_encode (slots : Slots) : decode slots.encode = .ok slots := by
  have long : require slots.encode width .integerPayload = .ok () :=
    require_eq_ok_iff.2 (Nat.le_of_eq slots.length_encode.symm)
  rw [decode, long]
  simp [encode, wordAt, wordBytes, Bytes.fieldAt_append_right, List.append_assoc, bind,
    Except.bind, pure, Except.pure]

@[simp] theorem encode_ne_nil (slots : Slots) : slots.encode ≠ [] := by
  intro empty
  have length := slots.length_encode
  rw [empty] at length
  cases length

theorem values_ofValues {values : List Int64} (used : values ≠ []) (few : values.length ≤ 3) :
    (ofValues values).values = values.map fun n => n.toUInt64.toUInt32 := by
  match values with
  | [] => exact absurd rfl used
  | [a] => rfl
  | [a, b] => rfl
  | [a, b, c] => rfl
  | _ :: _ :: _ :: _ :: _ =>
    simp only [List.length_cons] at few
    omega

theorem widen_values_ofValues {values : List Int64} (used : values ≠ [])
    (few : values.length ≤ 3) (range : ∀ n ∈ values, 0 ≤ n.toInt ∧ n.toInt < 4294967296) :
    ((ofValues values).values.map fun n => n.toUInt64.toInt64) = values := by
  rw [values_ofValues used few, List.map_map]
  conv => rhs; rw [← List.map_id values]
  apply List.map_congr_left
  intro n mem
  exact widen_narrow (range n mem).1 (range n mem).2

end Slots

/-! Dates. -/

/-- The start of 1904, where the dates of a record begin. -/
def start1904 : Int := CalendarDate.dayNumber ⟨1904, 1, 1⟩ * msPerDay

/-- A record can hold the time: it is one of the 2^32 whole seconds from the start of 1904. -/
def InRecord (t : Timestamp) : Prop :=
  t.ms.toInt % 1000 = 0 ∧ start1904 ≤ t.ms.toInt ∧ t.ms.toInt < start1904 + 4294967296000

instance (t : Timestamp) : Decidable (InRecord t) :=
  inferInstanceAs (Decidable (_ ∧ _ ∧ _))

theorem start1904_eq : start1904 = -2082844800000 := by decide

theorem toInt_dateEpoch : dateEpoch.toInt = 2082844800 := by decide

theorem toInt_thousand : (1000 : Int64).toInt = 1000 := by decide

variable {t : Timestamp}

theorem toInt_secondsOfTime (h : InRecord t) :
    (secondsOfTime t).toInt * 1000 + start1904 = t.ms.toInt := by
  obtain ⟨whole, low, high⟩ := h
  rw [start1904_eq] at low high ⊢
  have seconds : t.unixSeconds = t.ms.toInt / 1000 := Int.fdiv_eq_ediv_of_nonneg _ (by decide)
  have small : (Int64.ofInt t.unixSeconds).toInt = t.ms.toInt / 1000 := by
    rw [seconds]
    exact Int64.toInt_ofInt_of_le (by omega) (by omega)
  rw [secondsOfTime, Int64.toInt_add, small, toInt_dateEpoch,
    Int.bmod_eq_of_le (by omega) (by omega)]
  omega

theorem secondsOfTime_range (h : InRecord t) :
    0 ≤ (secondsOfTime t).toInt ∧ (secondsOfTime t).toInt < 4294967296 := by
  have seconds := toInt_secondsOfTime h
  obtain ⟨whole, low, high⟩ := h
  omega

theorem timeOfSeconds_secondsOfTime (h : InRecord t) :
    timeOfSeconds (secondsOfTime t).toUInt64.toUInt32 = t := by
  have seconds := toInt_secondsOfTime h
  have range := secondsOfTime_range h
  rw [start1904_eq] at seconds
  have ms : saturatingMul (secondsOfTime t - dateEpoch) 1000 = t.ms := by
    apply saturatingMul_eq
    rw [Int64.toInt_sub, toInt_dateEpoch, toInt_thousand, Int.bmod_eq_of_le (by omega) (by omega)]
    omega
  rw [timeOfSeconds, widen_narrow range.1 range.2, Timestamp.ofUnixSeconds, ms]

/-- What is left of the values of a date: an offset in whole seconds, or times of which the last one
is lost if it is the start of 1904. -/
def storedDates (operator : Operator) (times : List Timestamp) : List Timestamp :=
  if operator = .within then times.map fun t => ⟨saturatingMul (t.ms / 1000) 1000⟩
  else if times.getLast?.any (·.ms.toInt = start1904) then times.dropLast else times

/-- Only the start of 1904 is written as zero, which stands for no date in the last slot. -/
theorem narrow_secondsOfTime_eq_zero_iff (h : InRecord t) :
    (secondsOfTime t).toUInt64.toUInt32 = 0 ↔ t.ms.toInt = start1904 := by
  have seconds := toInt_secondsOfTime h
  have range := secondsOfTime_range h
  have value := toNat_narrow range.1 range.2
  constructor
  · intro zero
    rw [zero] at value
    change (0 : Int) = (secondsOfTime t).toInt at value
    omega
  · intro start
    rw [← UInt32.toNat_inj]
    change _ = 0
    omega

theorem decodeDates_encodeDates {operator : Operator} (points : operator ≠ .within)
    {times : List Timestamp} (used : times ≠ []) (few : times.length ≤ 3)
    (dates : ∀ t ∈ times, InRecord t) (first : Timestamp) :
    decodeDates operator (encodeDates operator first times) = storedDates operator times := by
  have values : (Slots.ofValues (times.map secondsOfTime)).values =
      times.map fun t => (secondsOfTime t).toUInt64.toUInt32 := by
    rw [Slots.values_ofValues (by simpa using used) (by simpa using few), List.map_map]
    rfl
  have back {part : List Timestamp} (inside : ∀ t ∈ part, t ∈ times) :
      (part.map fun t => (secondsOfTime t).toUInt64.toUInt32).map timeOfSeconds = part := by
    rw [List.map_map]
    conv => rhs; rw [← List.map_id part]
    exact List.map_congr_left fun t mem => timeOfSeconds_secondsOfTime (dates t (inside t mem))
  have last : (times.map fun t => (secondsOfTime t).toUInt64.toUInt32).getLast? = some 0 ↔
      times.getLast?.any (·.ms.toInt = start1904) = true := by
    rw [List.getLast?_map]
    cases final : times.getLast? with
    | none => simp
    | some t => simpa using narrow_secondsOfTime_eq_zero_iff (dates t (List.mem_of_getLast? final))
  rw [decodeDates, if_neg points, encodeDates, if_neg points, values, dropLastZero, storedDates,
    if_neg points]
  split
  · rename_i zero
    rw [if_pos (last.1 zero), ← List.map_dropLast]
    exact back fun t mem => List.dropLast_subset times mem
  · rename_i other
    rw [if_neg fun start => other (last.2 start)]
    exact back fun t mem => mem

/-! Offsets. -/

/-- The unit of an offset measures it exactly. -/
theorem offsetUnit_spec (seconds : Int64) :
    offsetUnit seconds ∈ 1 :: offsetUnits ∧ seconds % offsetUnit seconds = 0 := by
  unfold offsetUnit
  cases found : offsetUnits.find? fun unit => seconds % unit == 0 with
  | none =>
    refine ⟨List.mem_cons_self, ?_⟩
    rw [Option.getD_none, ← Int64.toInt_inj, Int64.toInt_mod]
    exact Int.tmod_one _
  | some unit =>
    exact ⟨List.mem_cons_of_mem 1 (List.mem_of_find?_eq_some found),
      by simpa using List.find?_some found⟩

theorem offsetUnit_range (seconds : Int64) :
    0 < (offsetUnit seconds).toInt ∧ (offsetUnit seconds).toInt < 4294967296 := by
  have range : ((1 :: offsetUnits).all fun unit =>
      0 < unit.toInt ∧ unit.toInt < 4294967296) = true := by decide
  simpa using List.all_eq_true.1 range _ (offsetUnit_spec seconds).1

theorem saturatingMul_offsetUnit (seconds : Int64) :
    saturatingMul (seconds / offsetUnit seconds) (offsetUnit seconds) = seconds := by
  obtain ⟨positive, _⟩ := offsetUnit_range seconds
  have exact := congrArg Int64.toInt (offsetUnit_spec seconds).2
  rw [Int64.toInt_mod] at exact
  apply saturatingMul_eq
  have other : offsetUnit seconds ≠ -1 := by
    intro same
    rw [same] at positive
    revert positive
    decide
  rw [Int64.toInt_div_of_ne_right _ _ other]
  exact Int.tdiv_mul_cancel (Int.dvd_of_tmod_eq_zero exact)

theorem decodeDates_encodeDates_within (t : Timestamp) (times : List Timestamp) :
    decodeDates .within (encodeDates .within t times) = storedDates .within [t] := by
  obtain ⟨positive, small⟩ := offsetUnit_range (t.ms / 1000)
  rw [decodeDates, if_pos rfl, encodeDates, if_pos rfl, storedDates, if_pos rfl]
  simp only [Slots.relative]
  rw [widen_narrow (Int.le_of_lt positive) small, saturatingMul_offsetUnit]
  rfl

theorem saturatingMul_whole (whole : t.ms.toInt % 1000 = 0) :
    saturatingMul (t.ms / 1000) 1000 = t.ms := by
  apply saturatingMul_eq
  rw [Int64.toInt_div_of_ne_right _ _ (by decide), toInt_thousand]
  exact Int.tdiv_mul_cancel (Int.dvd_of_emod_eq_zero whole)

theorem storedDates_within {times : List Timestamp} (whole : ∀ t ∈ times, t.ms.toInt % 1000 = 0) :
    storedDates .within times = times := by
  rw [storedDates, if_pos rfl]
  conv => rhs; rw [← List.map_id times]
  exact List.map_congr_left fun t mem => congrArg Timestamp.mk (saturatingMul_whole (whole t mem))

theorem storedDates_points {operator : Operator} (points : operator ≠ .within)
    {times : List Timestamp}
    (later : ∀ t, times.getLast? = some t → t.ms.toInt ≠ start1904) :
    storedDates operator times = times := by
  rw [storedDates, if_neg points, if_neg]
  rw [Option.any_eq_true]
  rintro ⟨t, last, start⟩
  exact later t last (of_decide_eq_true start)

end MusicLibrary.Smart
