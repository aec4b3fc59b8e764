import Mathlib.Algebra.Group.Int.Defs
import Mathlib.Data.List.Chain
import MusicLibrary.Track.MergePolicy

/-! What a merge policy makes of a value that a file changes again and again. The stored value is
told by all the values that the file had, without a look at the merges in between: the last one, the
last one that was set, the least, the greatest, or the first one with all that was gained since. -/

namespace MusicLibrary

/-! Orders. -/

namespace FieldType

theorem before_irrefl (type : FieldType) (a : type.Value) : type.before a a = false := by
  cases type with
  | text => exact decide_eq_false (String.lt_irrefl a)
  | integer => exact decide_eq_false Int64.lt_irrefl
  | flag => exact Bool.not_and_self a
  | time => exact decide_eq_false Int64.lt_irrefl
  | mediaKind => exact decide_eq_false (UInt32.lt_irrefl _)
  | id => exact decide_eq_false (UInt64.lt_irrefl _)

theorem before_trans {type : FieldType} {a b c : type.Value} (ab : type.before a b = true)
    (bc : type.before b c = true) : type.before a c = true := by
  cases type with
  | text => exact decide_eq_true (String.lt_trans (of_decide_eq_true ab) (of_decide_eq_true bc))
  | integer => exact decide_eq_true (Int64.lt_trans (of_decide_eq_true ab) (of_decide_eq_true bc))
  | flag =>
    cases a with
    | false => cases c with
      | false => cases b <;> cases bc
      | true => rfl
    | true => cases ab
  | time => exact decide_eq_true (Int64.lt_trans (of_decide_eq_true ab) (of_decide_eq_true bc))
  | mediaKind =>
    exact decide_eq_true (UInt32.lt_trans (of_decide_eq_true ab) (of_decide_eq_true bc))
  | id => exact decide_eq_true (UInt64.lt_trans (of_decide_eq_true ab) (of_decide_eq_true bc))

theorem ms_le_of_not_before {a b : Timestamp} (h : time.before a b = false) : b.ms ≤ a.ms :=
  Int64.not_lt.1 (of_decide_eq_false h)

/-- A counter as a number; without a value it stands at zero. -/
def count : (type : FieldType) → Option type.Value → Int
  | .integer, counter => Int64.toInt (counter.getD 0)
  | .text, _ | .flag, _ | .time, _ | .mediaKind, _ | .id, _ => 0

theorem count_integer (counter : Option Int64) :
    count .integer counter = Int64.toInt (counter.getD 0) := rfl

end FieldType

/-! Gains. -/

/-- All that a sequence of numbers gains where it rises. -/
def growth : List Int → Int
  | [] => 0
  | [_] => 0
  | a :: b :: rest => max 0 (b - a) + growth (b :: rest)

def FitsWord (n : Int) : Prop := -2 ^ 63 ≤ n ∧ n < 2 ^ 63

instance (n : Int) : Decidable (FitsWord n) :=
  inferInstanceAs (Decidable (_ ∧ _))

/-- A counter that starts where a sequence starts can follow it within a word. -/
structure Countable (counts : List Int) : Prop where
  differences : counts.IsChain fun a b => FitsWord (b - a)
  total : ∀ first ∈ counts.head?, first + growth counts < 2 ^ 63

theorem growth_concat {counts : List Int} {last : Int} (h : counts.getLast? = some last)
    (new : Int) : growth (counts ++ [new]) = growth counts + max 0 (new - last) := by
  induction counts with
  | nil => cases h
  | cons a rest ih =>
    cases rest with
    | nil =>
      rw [List.getLast?_singleton, Option.some.injEq] at h
      simp [growth, h]
    | cons b rest =>
      rw [List.getLast?_cons_cons] at h
      have later := ih h
      rw [List.cons_append, List.cons_append, growth, growth]
      rw [List.cons_append] at later
      omega

theorem growth_nonneg (counts : List Int) : 0 ≤ growth counts := by
  fun_induction growth counts with
  | case1 => exact Int.le_refl 0
  | case2 => exact Int.le_refl 0
  | case3 a b rest ih => omega

/-- Nothing is gained by numbers that never rise. -/
theorem growth_eq_zero_iff (counts : List Int) : growth counts = 0 ↔ counts.IsChain (· ≥ ·) := by
  fun_induction growth counts with
  | case1 => exact iff_of_true rfl .nil
  | case2 a => exact iff_of_true rfl (.singleton a)
  | case3 a b rest ih =>
    have later := growth_nonneg (b :: rest)
    rw [List.isChain_cons_cons, ← ih]
    omega

/-- What can be followed to its end can be followed up to any place. -/
theorem Countable.of_concat {counts : List Int} {new : Int} (h : Countable (counts ++ [new])) :
    Countable counts := by
  refine ⟨h.differences.left_of_append, fun first head => ?_⟩
  cases last : counts.getLast? with
  | none =>
    rw [List.getLast?_eq_none_iff.1 last] at head
    cases head
  | some n =>
    have whole := h.total first (List.mem_head?_append_of_mem_head? head)
    rw [growth_concat last] at whole
    omega

theorem Countable.of_append {counts more : List Int} (h : Countable (counts ++ more)) :
    Countable counts := by
  induction more using List.reverseRecOn with
  | nil => rwa [List.append_nil] at h
  | append_singleton more last ih =>
    rw [← List.append_assoc] at h
    exact ih h.of_concat

/-- What following a sequence up to its end takes at the last step. -/
theorem Countable.last_step {counts : List Int} {first last new : Int}
    (h : Countable (counts ++ [new])) (head : counts.head? = some first)
    (final : counts.getLast? = some last) :
    FitsWord (new - last) ∧ first + growth counts + max 0 (new - last) < 2 ^ 63 := by
  obtain ⟨-, -, step⟩ := List.isChain_append.1 h.differences
  have total := h.total first (List.mem_head?_append_of_mem_head? head)
  rw [growth_concat final] at total
  exact ⟨step last final new rfl, by omega⟩

/-! Counters. -/

theorem word64?_eq_some_iff {n : Int} {word : Int64} :
    word64? n = some word ↔ FitsWord n ∧ word.toInt = n := by
  unfold word64? FitsWord
  rw [Option.ite_none_right_eq_some, Option.some.injEq]
  constructor
  · rintro ⟨⟨low, high⟩, rfl⟩
    exact ⟨by omega, Int64.toInt_ofInt_of_le (by omega) (by omega)⟩
  · rintro ⟨⟨low, high⟩, same⟩
    refine ⟨by omega, ?_⟩
    rw [← same, Int64.ofInt_toInt]

theorem isSome_word64? {n : Int} (h : FitsWord n) : (word64? n).isSome = true := by
  unfold FitsWord at h
  rw [word64?, if_pos (by omega)]
  rfl

/-- A counter can follow a change of the file: what the file has counted on is within a word, and so
is what it makes of the counter. -/
structure FieldType.CanFollow (type : FieldType) (stored old new : Option type.Value) : Prop where
  growth : FitsWord (type.count new - type.count old)
  sum : type.count stored + max 0 (type.count new - type.count old) < 2 ^ 63

/-- What a counter becomes. It stays as it is unless the file has counted on. -/
structure FieldType.Follows (type : FieldType) (stored old new result : Option type.Value) :
    Prop where
  steady : type.count new ≤ type.count old → result = stored
  rising : type.count old < type.count new → result.isSome = true
  count : type.count result = type.count stored + max 0 (type.count new - type.count old)

namespace MergePolicy

theorem grown?_eq_some {stored old new result : Option Int64}
    (h : grown? stored old new = some result) :
    FieldType.CanFollow .integer stored old new ∧
      FieldType.Follows .integer stored old new result := by
  simp only [grown?, Option.bind_eq_bind, Option.bind_eq_some_iff, word64?_eq_some_iff] at h
  obtain ⟨growth, ⟨fits, difference⟩, h⟩ := h
  have range := Int64.toInt_lt (stored.getD 0)
  have start := FieldType.count_integer stored
  have before := FieldType.count_integer old
  have after := FieldType.count_integer new
  split at h
  · rename_i up
    simp only [Option.bind_eq_some_iff, word64?_eq_some_iff] at h
    obtain ⟨sum, ⟨⟨low, room⟩, total⟩, h⟩ := h
    cases h
    rw [Int64.lt_iff_toInt_lt, Int64.toInt_zero] at up
    have count := FieldType.count_integer (some sum)
    rw [Option.getD_some] at count
    exact ⟨⟨fits, by omega⟩, fun le => by omega, fun _ => rfl, by omega⟩
  · rename_i down
    cases h
    rw [Int64.lt_iff_toInt_lt, Int64.toInt_zero] at down
    exact ⟨⟨fits, by omega⟩, fun _ => rfl, fun lt => by omega, by omega⟩

theorem isSome_grown? {stored old new : Option Int64}
    (h : FieldType.CanFollow .integer stored old new) : (grown? stored old new).isSome = true := by
  obtain ⟨fits, room⟩ := h
  simp only [FieldType.count_integer] at fits room
  obtain ⟨growth, first⟩ := Option.isSome_iff_exists.1 (isSome_word64? fits)
  have difference := (word64?_eq_some_iff.1 first).2
  have low := Int64.le_toInt (stored.getD 0)
  rw [grown?, first]
  simp only [Option.bind_eq_bind, Option.bind_some]
  split
  · rename_i up
    rw [Int64.lt_iff_toInt_lt, Int64.toInt_zero] at up
    have sum : FitsWord ((stored.getD 0).toInt + growth.toInt) := ⟨by omega, by omega⟩
    obtain ⟨total, second⟩ := Option.isSome_iff_exists.1 (isSome_word64? sum)
    rw [second]
    rfl
  · rfl

theorem accumulated?_eq_some {type : FieldType} {stored old new result : Option type.Value}
    (h : accumulated? type stored old new = some result) :
    type.CanFollow stored old new ∧ type.Follows stored old new result := by
  cases type with
  | integer => exact grown?_eq_some h
  | text | flag | time | mediaKind | id =>
    cases h
    exact ⟨⟨by simp [FieldType.count, FitsWord], by simp [FieldType.count]⟩, fun _ => rfl,
      fun lt => absurd lt (Int.lt_irrefl 0), rfl⟩

theorem isSome_accumulated? {type : FieldType} {stored old new : Option type.Value}
    (h : type.CanFollow stored old new) : (accumulated? type stored old new).isSome = true := by
  cases type with
  | integer => exact isSome_grown? h
  | text | flag | time | mediaKind | id => rfl

theorem accumulated?_of_unchanged {type : FieldType} {stored value result : Option type.Value}
    (h : accumulated? type stored value value = some result) : result = stored :=
  (accumulated?_eq_some h).2.steady (Int.le_refl _)

/-! All policies. -/

/-- The set value that no other one is before, if any is set. -/
def IsFirst (before : α → α → Bool) (values : List (Option α)) : Option α → Prop
  | none => ∀ v ∈ values, v = none
  | some first => some first ∈ values ∧ ∀ v, some v ∈ values → before v first = false

/-- What is stored of a value that a file has created and changed since, told by all that it was in
the file. -/
def IsResult (policy : MergePolicy) (type : FieldType) (values : List (Option type.Value))
    (result : Option type.Value) : Prop :=
  match policy with
  | .overwrite => values.getLast? = some result
  | .overwriteIfPresent => result = (values.filterMap id).getLast?
  | .earliest => IsFirst type.before values result
  | .latest => IsFirst (fun a b => type.before b a) values result
  | .accumulate => ∃ first, values.head? = some first ∧
    ((values.map type.count).IsChain (· ≥ ·) → result = first) ∧
    (¬ (values.map type.count).IsChain (· ≥ ·) → result.isSome = true ∧
      type.count result = type.count first + growth (values.map type.count))
  | .keepStored => True

theorem isFirst_singleton (before : α → α → Bool) (irrefl : ∀ a, before a a = false)
    (value : Option α) : IsFirst before [value] value := by
  cases value with
  | none =>
    intro v mem
    exact List.mem_singleton.1 mem
  | some first =>
    refine ⟨List.mem_cons_self, fun v mem => ?_⟩
    rw [List.mem_singleton, Option.some.injEq] at mem
    rw [mem]
    exact irrefl first

/-- What a file creates is stored as it is. -/
theorem isResult_singleton (policy : MergePolicy) (type : FieldType) (value : Option type.Value) :
    IsResult policy type [value] value := by
  cases policy with
  | overwrite => rfl
  | overwriteIfPresent => cases value <;> rfl
  | accumulate =>
    refine ⟨value, rfl, fun _ => rfl, fun rises => ?_⟩
    exact absurd (.singleton _) rises
  | earliest => exact isFirst_singleton type.before type.before_irrefl value
  | latest => exact isFirst_singleton (fun a b => type.before b a) type.before_irrefl value
  | keepStored => trivial

/-- The better one of the first value and a new one is the first of them all. -/
theorem isFirst_concat (before : α → α → Bool) (irrefl : ∀ a, before a a = false)
    (trans : ∀ a b c, before a b = true → before b c = true → before a c = true)
    {values : List (Option α)} {stored : Option α} (h : IsFirst before values stored)
    (new : Option α) : IsFirst before (values ++ [new]) (better before stored new) := by
  -- Of the values that it is compared with, the new one needs to be looked at only.
  have fresh (n : α) (least : ∀ v, some v ∈ values → before v n = false) :
      IsFirst before (values ++ [some n]) (some n) := by
    refine ⟨List.mem_append_right values List.mem_cons_self, fun v mem => ?_⟩
    rcases List.mem_append.1 mem with mem | mem
    · exact least v mem
    · rw [List.mem_singleton, Option.some.injEq] at mem
      rw [mem]
      exact irrefl n
  cases stored with
  | none =>
    cases new with
    | none =>
      intro v mem
      rcases List.mem_append.1 mem with mem | mem
      · exact h v mem
      · exact List.mem_singleton.1 mem
    | some n =>
      apply fresh n
      intro v mem
      cases h _ mem
  | some first =>
    obtain ⟨mem, least⟩ := h
    have kept (no : ∀ v, new = some v → before v first = false) :
        IsFirst before (values ++ [new]) (some first) := by
      refine ⟨List.mem_append_left [new] mem, fun v mem => ?_⟩
      rcases List.mem_append.1 mem with mem | mem
      · exact least v mem
      · exact no v (List.mem_singleton.1 mem).symm
    cases new with
    | none => exact kept nofun
    | some n =>
      rw [better]
      split
      · rename_i replaces
        apply fresh n
        intro v mem
        rw [Bool.eq_false_iff]
        intro less
        have first_less := trans v n first less replaces
        rw [least v mem] at first_less
        cases first_less
      · rename_i stays
        apply kept
        intro v same
        rw [← Option.some.inj same]
        exact Bool.eq_false_iff.2 stays

/-- Of a stored value and a new one the better one is the first. -/
theorem isFirst_better (before : α → α → Bool) (irrefl : ∀ a, before a a = false)
    (trans : ∀ a b c, before a b = true → before b c = true → before a c = true)
    (stored new : Option α) : IsFirst before [stored, new] (better before stored new) :=
  isFirst_concat before irrefl trans (isFirst_singleton before irrefl stored) new

/-- Where a value is set there is a first one, which the value is not before. -/
theorem IsFirst.of_mem {before : α → α → Bool} {values : List (Option α)} {result : Option α}
    {v : α} (h : IsFirst before values result) (mem : some v ∈ values) :
    ∃ first, result = some first ∧ before v first = false := by
  cases result with
  | none => cases h _ mem
  | some first => exact ⟨first, rfl, h.2 v mem⟩

/-- Where of two values one comes before the other, at most one value is the first. -/
theorem IsFirst.unique {before : α → α → Bool}
    (total : ∀ a b, before a b = false → before b a = false → a = b) {values : List (Option α)}
    {a b : Option α} (ha : IsFirst before values a) (hb : IsFirst before values b) : a = b := by
  cases a with
  | none =>
    cases b with
    | none => rfl
    | some b => exact (ha _ hb.1).symm
  | some a =>
    cases b with
    | none => exact hb _ ha.1
    | some b => rw [total a b (hb.2 a ha.1) (ha.2 b hb.1)]

/-- A value that has been looked at is no better than the first one. -/
theorem better_of_mem {before : α → α → Bool} {values : List (Option α)} {stored v : Option α}
    (h : IsFirst before values stored) (mem : v ∈ values) : better before stored v = stored := by
  cases stored with
  | none =>
    rw [h v mem]
    rfl
  | some first =>
    cases v with
    | none => rfl
    | some n =>
      rw [better, h.2 n mem]
      rfl

/-- A new value that is set is the last one that is. -/
theorem getLast?_filterMap_concat (values : List (Option α)) (new : Option α) :
    ((values ++ [new]).filterMap id).getLast? = new.or (values.filterMap id).getLast? := by
  rw [List.filterMap_append, List.getLast?_append]
  cases new <;> rfl

/-- A counter that follows a sequence stands as much higher as the sequence has gained. -/
theorem count_of_isResult {type : FieldType} {values : List (Option type.Value)}
    {first result : Option type.Value} (h : IsResult .accumulate type values result)
    (head : values.head? = some first) :
    type.count result = type.count first + growth (values.map type.count) := by
  obtain ⟨start, startHead, steady, rising⟩ := h
  rw [head, Option.some.injEq] at startHead
  subst startHead
  by_cases chain : (values.map type.count).IsChain (· ≥ ·)
  · rw [steady chain, (growth_eq_zero_iff _).2 chain, Int.add_zero]
  · exact (rising chain).2

/-- A counter that follows a sequence can follow it further, as long as the counts fit. -/
theorem IsResult.canFollow {type : FieldType} {values : List (Option type.Value)}
    {stored old : Option type.Value} (h : IsResult .accumulate type values stored)
    (last : values.getLast? = some old) (new : Option type.Value)
    (countable : Countable ((values ++ [new]).map type.count)) :
    type.CanFollow stored old new := by
  obtain ⟨first, head, -⟩ := id h
  have count := count_of_isResult h head
  have firstCount : (values.map type.count).head? = some (type.count first) := by
    rw [List.head?_map, head, Option.map_some]
  have lastCount : (values.map type.count).getLast? = some (type.count old) := by
    rw [List.getLast?_map, last, Option.map_some]
  rw [List.map_append, List.map_singleton] at countable
  obtain ⟨fits, room⟩ := countable.last_step firstCount lastCount
  exact ⟨fits, by omega⟩

theorem isResult_accumulated {type : FieldType} {values : List (Option type.Value)}
    {stored old new result : Option type.Value} (h : IsResult .accumulate type values stored)
    (last : values.getLast? = some old) (follows : type.Follows stored old new result) :
    IsResult .accumulate type (values ++ [new]) result := by
  obtain ⟨first, head, steady, rising⟩ := h
  have count := count_of_isResult ⟨first, head, steady, rising⟩ head
  have lastCount : (values.map type.count).getLast? = some (type.count old) := by
    rw [List.getLast?_map, last, Option.map_some]
  have grows := growth_concat lastCount (type.count new)
  have total := follows.count
  refine ⟨first, List.mem_head?_append_of_mem_head? head, ?_, ?_⟩
  · intro chain
    rw [List.map_append, List.map_singleton] at chain
    have still := (growth_eq_zero_iff _).2 chain
    have before := growth_nonneg (values.map type.count)
    rw [follows.steady (by omega)]
    exact steady chain.left_of_append
  · intro rises
    rw [List.map_append, List.map_singleton, ← growth_eq_zero_iff] at rises
    rw [List.map_append, List.map_singleton, grows]
    refine ⟨?_, by omega⟩
    rcases Int.lt_or_le (type.count old) (type.count new) with lt | le
    · exact follows.rising lt
    · have risen : ¬ (values.map type.count).IsChain (· ≥ ·) := by
        rw [← growth_eq_zero_iff]
        omega
      rw [follows.steady le]
      exact (rising risen).1

/-- A merge takes the next value of the file into account. -/
theorem IsResult.merge {policy : MergePolicy} {type : FieldType}
    {values : List (Option type.Value)} {stored old new result : Option type.Value}
    (h : IsResult policy type values stored) (last : values.getLast? = some old)
    (merged : policy.merge? type stored old new = some result) :
    IsResult policy type (values ++ [new]) result := by
  cases policy with
  | overwrite =>
    have same : some stored = some old := Eq.trans h.symm last
    rw [Option.some.injEq] at same
    have adopted : result = new := by
      rw [← Option.some.inj merged, same]
      split
      · assumption
      · rfl
    rw [adopted]
    exact List.getLast?_concat
  | overwriteIfPresent =>
    have same : stored = (values.filterMap id).getLast? := h
    change _ = ((values ++ [new]).filterMap id).getLast?
    rw [getLast?_filterMap_concat, ← same, ← Option.some.inj merged]
    split
    · rename_i unchanged
      cases new with
      | none => rfl
      | some n =>
        -- The last value of the file is the last one that was set.
        obtain ⟨front, rfl⟩ := List.getLast?_eq_some_iff.1 last
        rw [same, getLast?_filterMap_concat, unchanged]
        rfl
    · cases new <;> rfl
  | accumulate => exact isResult_accumulated h last (accumulated?_eq_some merged).2
  | earliest =>
    cases merged
    exact isFirst_concat type.before type.before_irrefl (fun _ _ _ => type.before_trans) h new
  | latest =>
    cases merged
    exact isFirst_concat (fun a b => type.before b a) type.before_irrefl
      (fun _ _ _ ab bc => type.before_trans bc ab) h new
  | keepStored => trivial

/-- A merge fails only for a counter that cannot follow. -/
theorem isSome_merge?_iff {policy : MergePolicy} {type : FieldType}
    {stored old new : Option type.Value} :
    (policy.merge? type stored old new).isSome = true ↔
      (policy = .accumulate → type.CanFollow stored old new) := by
  cases policy with
  | accumulate =>
    refine ⟨fun h _ => ?_, fun h => isSome_accumulated? (h rfl)⟩
    obtain ⟨result, merged⟩ := Option.isSome_iff_exists.1 h
    exact (accumulated?_eq_some merged).1
  | overwrite | overwriteIfPresent | earliest | latest | keepStored =>
    exact iff_of_true rfl nofun

variable {type : FieldType} {stored old new result : Option type.Value}

/-- What is stored by one of these policies stays as long as the file does not change. -/
theorem merge?_of_unchanged {policy : MergePolicy}
    (h : policy = .overwrite ∨ policy = .overwriteIfPresent ∨ policy = .accumulate)
    (merged : policy.merge? type stored old old = some result) : result = stored := by
  rcases h with rfl | rfl | rfl
  · rw [merge?, if_pos rfl, Option.some.injEq] at merged
    exact merged.symm
  · rw [merge?, if_pos rfl, Option.some.injEq] at merged
    exact merged.symm
  · exact accumulated?_of_unchanged merged

theorem isSome_merge?_overwriteIfPresent (set : stored.isSome = true)
    (merged : overwriteIfPresent.merge? type stored old new = some result) :
    result.isSome = true := by
  rw [← Option.some.inj merged]
  split
  · exact set
  · cases new with
    | none => exact set
    | some n => rfl

/-- A stored time that is kept as the earliest one is never put off. -/
theorem exists_merge?_earliest {s : type.Value}
    (merged : earliest.merge? type (some s) old new = some result) :
    ∃ first, result = some first ∧ type.before s first = false := by
  cases merged
  exact (isFirst_better type.before type.before_irrefl (fun _ _ _ => type.before_trans) (some s)
    new).of_mem List.mem_cons_self

/-- A stored time that is kept as the latest one is never put back. -/
theorem exists_merge?_latest {s : type.Value}
    (merged : latest.merge? type (some s) old new = some result) :
    ∃ last, result = some last ∧ type.before last s = false := by
  cases merged
  exact (isFirst_better (fun a b => type.before b a) type.before_irrefl
    (fun _ _ _ ab bc => type.before_trans bc ab) (some s) new).of_mem List.mem_cons_self

/-- A value of the file that is repeated changes nothing. -/
theorem IsResult.merge_repeated {policy : MergePolicy} {values : List (Option type.Value)}
    (h : IsResult policy type values stored) (last : values.getLast? = some old)
    (merged : policy.merge? type stored old old = some result) : result = stored := by
  cases policy with
  | overwrite => exact merge?_of_unchanged (.inl rfl) merged
  | overwriteIfPresent => exact merge?_of_unchanged (.inr (.inl rfl)) merged
  | accumulate => exact merge?_of_unchanged (.inr (.inr rfl)) merged
  | earliest =>
    cases merged
    exact better_of_mem h (List.mem_of_getLast? last)
  | latest =>
    cases merged
    exact better_of_mem h (List.mem_of_getLast? last)
  | keepStored =>
    cases merged
    rfl

end MergePolicy

end MusicLibrary
