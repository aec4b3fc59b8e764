import MusicLibrary.Query.Rows

/-! Finding the tracks of a query without listing their rows. All rows of a track agree on what the
condition tests, so one row decides; and the condition is tested from left to right no further than
needed, which shows where a pattern is too long to be matched. -/

namespace MusicLibrary.Query

def maxPatternSize : Nat := 50000

namespace Predicate

def holds (row : Row) (p : Predicate) : Bool := truth row p == some true

mutual

/-- Whether the condition holds, if no pattern that is too long is met. -/
def test (row : Row) : Predicate → Option Bool
  | .like column pattern negated =>
    if maxPatternSize < pattern.utf8ByteSize then none
    else some (holds row (.like column pattern negated))
  | .group .and parts => testAll row parts
  | .group .or parts => testAny row parts
  | .never => some false
  | .always => some true
  | .isNull column negated => some (holds row (.isNull column negated))
  | .compare column comparison value => some (holds row (.compare column comparison value))
  | .sharesFlag kind negated => some (holds row (.sharesFlag kind negated))
  | .joined join found => some (holds row (.joined join found))
termination_by structural p => p

/-- Whether all conditions hold; the first one that does not ends the test. -/
def testAll (row : Row) : List Predicate → Option Bool
  | [] => some true
  | p :: rest =>
    match test row p with
    | some true => testAll row rest
    | other => other
termination_by structural parts => parts

/-- Whether one of the conditions holds; the first one that does ends the test. -/
def testAny (row : Row) : List Predicate → Option Bool
  | [] => some false
  | p :: rest =>
    match test row p with
    | some false => testAny row rest
    | other => other
termination_by structural parts => parts

end

mutual

def conjuncts : Predicate → List Predicate
  | .group conjunction parts =>
    if conjunction = .and ∨ parts.length = 1 then conjunctsOfParts parts
    else [.group conjunction parts]
  | p => [p]
termination_by structural p => p

def conjunctsOfParts : List Predicate → List Predicate
  | [] => []
  | p :: rest => p.conjuncts ++ conjunctsOfParts rest
termination_by structural parts => parts

end

mutual

/-- When a condition can be tested: before there is a track, with the track alone, or not before
the last join that it is about. -/
def stage : Predicate → Nat
  | .never | .always => 0
  | .joined join _ => join + 2
  | .group _ parts => stageOfParts parts
  | _ => 1
termination_by structural p => p

def stageOfParts : List Predicate → Nat
  | [] => 0
  | p :: rest => max p.stage (stageOfParts rest)
termination_by structural parts => parts

end

/-- The conditions that have to hold together, each as soon as it can be tested. -/
def arranged (p : Predicate) : List Predicate :=
  p.conjuncts.mergeSort fun a b => decide (a.stage ≤ b.stage)

theorem both_eq_true (a b : Option Bool) :
    (both a b == some true) = (a == some true && b == some true) := by
  rcases a with _ | _ | _ <;> rcases b with _ | _ | _ <;> rfl

theorem either_eq_true (a b : Option Bool) :
    (either a b == some true) = (a == some true || b == some true) := by
  rcases a with _ | _ | _ <;> rcases b with _ | _ | _ <;> rfl

/-- A conjunction holds if all its parts do. -/
theorem holds_and (row : Row) (parts : List Predicate) :
    holds row (.group .and parts) = parts.all (holds row) := by
  simp only [holds, truth]
  induction parts with
  | nil => rfl
  | cons p rest ih => simp only [truthOfParts, conjoin, both_eq_true, ih, List.all_cons, holds]

/-- A disjunction holds if one of its parts does. -/
theorem holds_or (row : Row) (parts : List Predicate) :
    holds row (.group .or parts) = parts.any (holds row) := by
  simp only [holds, truth]
  induction parts with
  | nil => rfl
  | cons p rest ih => simp only [truthOfParts, conjoin, either_eq_true, ih, List.any_cons, holds]

mutual

/-- A test that comes to an end tells whether the condition holds. -/
theorem test_sound (row : Row) {b : Bool} : ∀ p, test row p = some b → holds row p = b
  | .like column pattern negated, h => by
    simp only [test] at h
    split at h <;> simp_all
  | .group .and parts, h => by
    rw [holds_and]
    exact testAll_sound row parts h
  | .group .or parts, h => by
    rw [holds_or]
    exact testAny_sound row parts h
  | .never, h | .always, h => by simpa [test, holds, truth] using h
  | .isNull .., h | .compare .., h | .sharesFlag .., h | .joined .., h => by
    simpa [test] using h

theorem testAll_sound (row : Row) {b : Bool} :
    ∀ parts, testAll row parts = some b → parts.all (holds row) = b
  | [], h => by simpa [testAll] using h
  | p :: rest, h => by
    simp only [testAll] at h
    split at h
    · rename_i first
      simp [test_sound row p first, testAll_sound row rest h]
    · rename_i other
      cases b
      · simp [test_sound row p h]
      · exact absurd h other

theorem testAny_sound (row : Row) {b : Bool} :
    ∀ parts, testAny row parts = some b → parts.any (holds row) = b
  | [], h => by simpa [testAny] using h
  | p :: rest, h => by
    simp only [testAny] at h
    split at h
    · rename_i first
      simp [test_sound row p first, testAny_sound row rest h]
    · rename_i other
      cases b
      · exact absurd h other
      · simp [test_sound row p h]

end

mutual

theorem all_conjuncts (row : Row) : ∀ p, (conjuncts p).all (holds row) = holds row p
  | .group .and parts => by
    rw [holds_and]
    simpa [conjuncts] using all_conjunctsOfParts row parts
  | .group .or parts => by
    simp only [conjuncts, reduceCtorEq, false_or]
    split
    · rw [all_conjunctsOfParts, holds_or]
      obtain ⟨p, rfl⟩ := List.length_eq_one_iff.mp ‹_›
      simp
    · simp
  | .like .. | .never | .always | .isNull .. | .compare .. | .sharesFlag .. | .joined .. => by
    simp [conjuncts]

theorem all_conjunctsOfParts (row : Row) :
    ∀ parts, (conjunctsOfParts parts).all (holds row) = parts.all (holds row)
  | [] => rfl
  | p :: rest => by
    simp [conjunctsOfParts, all_conjuncts row p, all_conjunctsOfParts row rest]

end

/-- Arranging the conditions does not change what holds. -/
theorem all_arranged (row : Row) (p : Predicate) :
    (arranged p).all (holds row) = holds row p := by
  rw [← all_conjuncts, arranged, Bool.eq_iff_iff, List.all_eq_true, List.all_eq_true]
  simp only [List.mem_mergeSort]

mutual

/-- A condition sees the track, and of each join whether it found a playlist. -/
theorem truth_congr {a b : Row} (track : a.track = b.track)
    (joins : ∀ i : Nat, (a.found[i]?.join).isSome = (b.found[i]?.join).isSome) :
    ∀ p, truth a p = truth b p
  | .never | .always => rfl
  | .isNull .. | .compare .. | .like .. | .sharesFlag .. => by simp only [truth, track]
  | .joined join _ => by simp only [truth, joins join]
  | .group conjunction parts => by
    simp only [truth, truthOfParts_congr track joins conjunction parts]

theorem truthOfParts_congr {a b : Row} (track : a.track = b.track)
    (joins : ∀ i : Nat, (a.found[i]?.join).isSome = (b.found[i]?.join).isSome)
    (c : Smart.Conjunction) : ∀ parts, truthOfParts a c parts = truthOfParts b c parts
  | [] => rfl
  | p :: rest => by
    simp only [truthOfParts, truth_congr track joins p, truthOfParts_congr track joins c rest]

end

end Predicate

open Predicate

def firstRow (library : Library) (joins : List (Option Key)) (track : Track) : Row :=
  ⟨track, joins.map fun playlist => (found library track playlist).headD none⟩

/-- The items that pass a test, if the test comes to an end for each of them. -/
def filter? (test : α → Option Bool) : List α → Option (List α)
  | [] => some []
  | a :: rest => do
    let keep ← test a
    let kept ← filter? test rest
    return if keep then a :: kept else kept

def keeps? (library : Library) (joins : List (Option Key)) (terms : List Predicate)
    (track : Track) : Option Bool :=
  if track.location.isNone then some false else testAll (firstRow library joins track) terms

/-- The tracks that a query selects, each as often as the library has it, if no pattern that is too
long is met. -/
def search (query : Query) (library : Library) : Option (List Track) :=
  filter? (keeps? library query.joins query.condition.arranged) library.tracks

/-- The choices differ in nothing that a condition sees. -/
theorem isSome_of_mem_choices {lists : List (List (Option Key))}
    (uniform : ∀ items ∈ lists, ∀ p ∈ items, p.isSome = (items.headD none).isSome) :
    ∀ choice ∈ choices lists, ∀ i : Nat,
      (choice[i]?.join).isSome = ((lists.map (·.headD none))[i]?.join).isSome := by
  induction lists with
  | nil => simp [choices]
  | cons items rest ih =>
    intro choice h i
    simp only [choices, List.mem_flatMap, List.mem_map] at h
    obtain ⟨p, first, others, h, rfl⟩ := h
    cases i with
    | zero => simpa using uniform items List.mem_cons_self p first
    | succ i =>
      simpa using ih (fun items h => uniform items (List.mem_cons_of_mem _ h)) others h i

theorem choices_ne_nil {lists : List (List α)} (h : ∀ items ∈ lists, items ≠ []) :
    choices lists ≠ [] := by
  induction lists with
  | nil => simp [choices]
  | cons items rest ih =>
    have others := ih fun items inside => h items (List.mem_cons_of_mem _ inside)
    obtain ⟨item, items, rfl⟩ := List.exists_cons_of_ne_nil (h items List.mem_cons_self)
    simp [choices, others]

/-- Every row of a track is as good as its first one. -/
theorem holds_of_mem_rows {library : Library} {joins : List (Option Key)} {track : Track}
    {row : Row} (h : row ∈ rows library joins track) (p : Predicate) :
    row.track = track ∧ holds row p = holds (firstRow library joins track) p := by
  simp only [rows, List.mem_map] at h
  obtain ⟨choice, h, rfl⟩ := h
  refine ⟨rfl, ?_⟩
  have uniform : ∀ items ∈ joins.map (found library track), ∀ p ∈ items,
      p.isSome = (items.headD none).isSome := by
    simp only [List.mem_map]
    rintro items ⟨playlist, -, rfl⟩ p inside
    exact isSome_of_mem_found inside
  have agree : ∀ i : Nat,
      (choice[i]?.join).isSome = ((firstRow library joins track).found[i]?.join).isSome := by
    intro i
    simpa [firstRow, Function.comp_def] using isSome_of_mem_choices uniform choice h i
  simp only [holds,
    truth_congr (a := ⟨track, choice⟩) (b := firstRow library joins track) rfl agree]

theorem rows_ne_nil (library : Library) (joins : List (Option Key)) (track : Track) :
    rows library joins track ≠ [] := by
  simp only [rows, ne_eq, List.map_eq_nil_iff]
  apply choices_ne_nil
  simp only [List.mem_map]
  rintro items ⟨playlist, -, rfl⟩
  exact found_ne_nil library track playlist

/-- The tracks that a query selects, each as often as the library has it. -/
def matching (query : Query) (library : Library) : List Track :=
  library.tracks.filter fun track =>
    track.location.isSome && holds (firstRow library query.joins track) query.condition

theorem filter?_sound {test : α → Option Bool} {passes : α → Bool}
    (sound : ∀ a b, test a = some b → passes a = b) :
    ∀ items kept, filter? test items = some kept → kept = items.filter passes
  | [], kept, h => by simpa [filter?, eq_comm] using h
  | a :: rest, kept, h => by
    simp only [filter?, Option.bind_eq_bind, Option.bind_eq_some_iff, Option.pure_def,
      Option.some.injEq] at h
    obtain ⟨keep, first, others, h, rfl⟩ := h
    rw [filter?_sound sound rest others h, List.filter_cons, sound a keep first]

/-- A search that comes to an end finds the matching tracks. -/
theorem eq_matching_of_search {query : Query} {library : Library} {tracks : List Track}
    (h : query.search library = some tracks) : tracks = query.matching library := by
  refine filter?_sound (fun track b found => ?_) _ _ h
  simp only [keeps?] at found
  split at found
  · simp_all
  · rw [← all_arranged, testAll_sound _ _ found]
    simp_all [Option.isSome_iff_ne_none]

/-- The rows of a track that are kept are the track, once or more if it matches. -/
theorem kept_rows (query : Query) (library : Library) (track : Track) :
    ∃ count, (((rows library query.joins track).filter fun row =>
        row.track.location.isSome && query.condition.truth row == some true).map (·.track)) =
      if track.location.isSome && holds (firstRow library query.joins track) query.condition then
        List.replicate (count + 1) track
      else [] := by
  have agree : ∀ row ∈ rows library query.joins track,
      (row.track.location.isSome && query.condition.truth row == some true) =
        (track.location.isSome && holds (firstRow library query.joins track) query.condition) := by
    intro row inside
    obtain ⟨same, holds⟩ := holds_of_mem_rows inside query.condition
    rw [same, ← holds]
    rfl
  rw [List.filter_congr agree]
  refine ⟨(rows library query.joins track).length - 1, ?_⟩
  have positive := List.length_pos_iff.mpr (rows_ne_nil library query.joins track)
  split
  · rename_i matched
    rw [List.filter_eq_self.mpr fun _ _ => matched, List.eq_replicate_iff]
    refine ⟨by simp; omega, ?_⟩
    simp only [List.mem_map]
    rintro _ ⟨row, inside, rfl⟩
    exact (holds_of_mem_rows inside query.condition).1
  · rename_i missed
    simp [missed]

theorem addUnseen_replicate [BEq α] [LawfulBEq α] (seen : List α) (item : α) (count : Nat) :
    (List.replicate (count + 1) item).foldl addUnseen seen = addUnseen seen item := by
  have twice : ∀ seen : List α, addUnseen (addUnseen seen item) item = addUnseen seen item := by
    intro seen
    simp only [addUnseen]
    split <;> simp_all
  induction count with
  | zero => rfl
  | succ count ih => rw [List.replicate_succ', List.foldl_append, ih]; exact twice seen

/-- The rows say of every track as much as the search does. -/
theorem firstOccurrences_selected (query : Query) (library : Library) :
    firstOccurrences (query.selected library) = firstOccurrences (query.matching library) := by
  simp only [firstOccurrences, selected, matching]
  congr 1
  generalize ([] : List Track) = seen
  induction library.tracks generalizing seen with
  | nil => rfl
  | cons track rest ih =>
    obtain ⟨count, kept⟩ := kept_rows query library track
    simp only [List.flatMap_cons, List.filter_append, List.map_append, List.foldl_append, kept,
      List.filter_cons]
    split
    · rw [addUnseen_replicate, List.foldl_cons, ih]
    · rw [List.foldl_nil, ih]

theorem selected_of_joins_eq_nil {query : Query} (library : Library) (h : query.joins = []) :
    query.selected library = query.matching library := by
  have single : ∀ track, rows library query.joins track = [firstRow library query.joins track] := by
    intro track
    simp [rows, firstRow, choices, h]
  simp only [selected, matching]
  induction library.tracks with
  | nil => rfl
  | cons track rest ih =>
    rw [List.flatMap_cons, List.filter_append, List.map_append, ih, single, List.filter_cons,
      List.filter_cons]
    by_cases matched :
        (track.location.isSome && holds (firstRow library query.joins track) query.condition) = true
    · have kept : ((firstRow library query.joins track).track.location.isSome &&
          query.condition.truth (firstRow library query.joins track) == some true) = true := matched
      rw [if_pos kept, if_pos matched]
      rfl
    · have dropped : ¬ ((firstRow library query.joins track).track.location.isSome &&
          query.condition.truth (firstRow library query.joins track) == some true) = true := matched
      rw [if_neg dropped, if_neg matched]
      rfl

end MusicLibrary.Query
