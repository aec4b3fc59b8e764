import MusicLibrary.Proofs.Query.Allowance
import MusicLibrary.Proofs.Query.SmartTracks
import MusicLibrary.Proofs.Query.Wording

/-! What a limit keeps of the tracks that a smart playlist selects: the first ones, as many as are
asked for, or the longest start that a size or a time has room for. A measure without a cap cuts a
list only where the tracks in a row are together larger than a word. -/

namespace MusicLibrary

open Query.Budget

namespace Query

/-- The rows that the SQL of a query yields by a plan, in order. -/
def yields? (query : Query) (plan : Plan) (library : Library) : Option (List Track) :=
  if !query.isRunnable then none
  else if query.limit = some 0 then some []
  else (query.search library).map fun tracks =>
    counted query.limit (query.ordered plan library tracks)

/-- A query is run row by row, for as long as the budget admits the rows. -/
theorem run?_eq (query : Query) (plan : Plan) (library : Library) :
    query.run? plan library = (query.yields? plan library).map
      ((ofCaps query.maxSize query.maxTime).takeFitting fun track =>
        (track.size, track.totalTime)) := by
  rw [run?, yields?]
  split
  · rfl
  split
  · rfl
  · rw [Option.map_map]
    rfl

/-- The query without any cap. -/
def uncapped (query : Query) : Query :=
  { query with limit := none, maxSize := none, maxTime := none }

theorem parameters_uncapped (query : Query) : query.uncapped.parameters = query.parameters := by
  rw [parameters_eq, parameters_eq]
  rfl

/-- Of the caps only the count of tracks is part of the SQL, as a signed word. -/
theorem isRunnable_eq (query : Query) :
    query.isRunnable =
      (query.uncapped.isRunnable && query.limit.all (·.toNat < 0x8000000000000000)) := by
  have bare : query.uncapped.limit.all (·.toNat < 0x8000000000000000) = true := rfl
  rw [isRunnable, isRunnable, parameters_uncapped, bare, Bool.and_true]
  rfl

theorem yields?_uncapped (query : Query) (plan : Plan) (library : Library) :
    query.uncapped.yields? plan library =
      if query.uncapped.isRunnable then
        (query.search library).map (query.uncapped.ordered plan library)
      else none := by
  rw [yields?]
  cases query.uncapped.isRunnable <;> rfl

/-- The plan gives tied tracks in the same order whether the query has caps or not. -/
def Plan.IgnoresCaps (plan : Plan) (query : Query) (library : Library) : Prop :=
  ∀ tracks, plan.arrange query.uncapped library tracks = plan.arrange query library tracks

theorem yields?_of_uncapped {query : Query} {plan : Plan} {library : Library} {all : List Track}
    (ties : plan.IgnoresCaps query library) (h : query.uncapped.yields? plan library = some all)
    (word : query.limit.all (·.toNat < 0x8000000000000000) = true) :
    query.yields? plan library = some (counted query.limit all) := by
  rw [yields?_uncapped, Option.ite_none_right_eq_some] at h
  obtain ⟨runnable, sorted⟩ := h
  obtain ⟨tracks, found, rfl⟩ := Option.map_eq_some_iff.mp sorted
  have same : query.uncapped.ordered plan library tracks = query.ordered plan library tracks := by
    rw [ordered, ties]
    rfl
  rw [yields?, isRunnable_eq, runnable, word, if_neg (by decide), found, same]
  split
  · rename_i asked
    rw [asked]
    rfl
  · rfl

/-! Tracks that a budget admits. -/

/-- Whether a budget admits tracks one after the other. -/
def Budget.Affords (budget : Budget) (tracks : List Track) : Prop :=
  ∀ m, Admits (budget.left m) (tracks.map (Track.cost m))

/-- Tracks whose costs are not negative, and together no larger than a word. -/
structure HasTotal (m : Measure) (tracks : List Track) : Prop where
  low : ∀ track ∈ tracks, 0 ≤ track.cost m
  sum : (tracks.map (Track.cost m)).sum ≤ largest

theorem HasTotal.sublist {m : Measure} {part tracks : List Track} (h : HasTotal m tracks)
    (sub : part.Sublist tracks) : HasTotal m part where
  low track mem := h.low track (sub.subset mem)
  sum := Int.le_trans ((sub.map _).sum_le_sum (List.forall_mem_map.mpr h.low)) h.sum

/-- No running total of the tracks is above a cap, nor above the largest word. -/
def Within (m : Measure) (cap : UInt64) (tracks : List Track) : Prop :=
  ∀ first, first <+: tracks → (first.map (Track.cost m)).sum ≤ min (cap.toNat : Int) largest

/-- A cap bounds the running totals. -/
theorem HasTotal.admits_iff {m : Measure} {tracks : List Track} (h : HasTotal m tracks)
    {maxSize maxTime : Option UInt64} {cap : UInt64} (own : m.pick maxSize maxTime = some cap) :
    Admits ((ofCaps maxSize maxTime).left m) (tracks.map (Track.cost m)) ↔ Within m cap tracks := by
  rw [left_ofCaps, own]
  refine (admits_iff_totals (List.forall_mem_map.mpr h.low) h.sum).trans ?_
  constructor
  · exact fun totals first part => totals _ (part.map _)
  · intro within first part
    obtain ⟨tracks, start, rfl⟩ := List.prefix_map_iff.mp part
    exact within tracks start

/-- A measure without a cap bounds nothing. -/
theorem HasTotal.admits {m : Measure} {tracks : List Track} (h : HasTotal m tracks)
    {maxSize maxTime : Option UInt64} (own : m.pick maxSize maxTime = none) :
    Admits ((ofCaps maxSize maxTime).left m) (tracks.map (Track.cost m)) := by
  rw [left_ofCaps, own]
  exact admits_of_sum_le (List.forall_mem_map.mpr h.low) h.sum (Int.le_refl _)

/-- No tracks in a row are together larger than a word. -/
def NoOverrun (tracks : List Track) : Prop :=
  ∀ m run, run <:+: tracks → (run.map (Track.cost m)).sum ≤ largest

/-- Without a cap a budget admits what does not overrun. -/
theorem affords_iff_noOverrun (tracks : List Track) :
    (ofCaps none none).Affords tracks ↔ NoOverrun tracks := by
  refine forall_congr' fun m => ?_
  have start : (ofCaps none none).left m = largest := by cases m <;> rfl
  rw [start, admits_largest]
  constructor
  · exact fun runs run part => runs _ (part.map _)
  · intro runs costs part
    obtain ⟨run, inside, rfl⟩ := List.infix_map_iff.mp part
    exact runs run inside

/-- With a cap for one measure alone the longest start is told by its running totals. -/
theorem IsLongest.within {m : Measure} {maxSize maxTime : Option UInt64} {cap : UInt64}
    {all kept : List Track}
    (h : IsLongest (ofCaps maxSize maxTime).Affords all kept)
    (own : m.pick maxSize maxTime = some cap) (others : ∀ k, k ≠ m → k.pick maxSize maxTime = none)
    (total : ∀ k, HasTotal k all) : IsLongest (Within m cap) all kept := by
  refine h.congr fun tracks part => ?_
  have total := fun k => (total k).sublist part.sublist
  refine ⟨fun admits => ((total m).admits_iff own).mp (admits m), fun within k => ?_⟩
  by_cases same : k = m
  · rw [same]
    exact ((total m).admits_iff own).mpr within
  · exact (total k).admits (others k same)

end Query

/-- The tracks that a query yields are together no larger than the library. -/
theorem Library.HasTotals.of_yields? {library : Library} (totals : library.HasTotals)
    (distinct : library.tracks.Nodup) {query : Query} {plan : Query.Plan} {all : List Track}
    (h : query.uncapped.yields? plan library = some all) (m : Query.Measure) :
    Query.HasTotal m all := by
  have whole : Query.HasTotal m library.tracks := by
    cases m
    · exact ⟨totals.sizes, Int.le_of_lt_add_one totals.size⟩
    · exact ⟨totals.times, Int.le_of_lt_add_one totals.time⟩
  rw [Query.yields?_uncapped, Option.ite_none_right_eq_some] at h
  obtain ⟨tracks, found, rfl⟩ := Option.map_eq_some_iff.mp h.2
  rw [Query.eq_matching_of_search found]
  have part : (query.matching library).Sublist library.tracks := List.filter_sublist
  have same : (query.uncapped.ordered plan library (query.matching library)).Perm
      (query.matching library) := by
    have perm := plan.perm query.uncapped library (query.candidates library)
    exact perm.trans (.of_eq (Query.candidates_eq_matching distinct query))
  have matching := whole.sublist part
  refine ⟨fun track mem => matching.low track (same.subset mem), ?_⟩
  rw [(same.map _).sum_eq]
  exact matching.sum

/-- What the limit of a smart playlist keeps of all tracks: as many of the first ones as it counts,
or the longest start with no running total above the cap. -/
def Smart.Keeps (smart : Smart) (all kept : List Track) : Prop :=
  match smart.limit.map Smart.Limit.cap with
  | none => kept = all
  | some (.items count) => kept = all.take (min count.toNat all.length)
  | some (.size bytes) => Query.IsLongest (Query.Within .size bytes) all kept
  | some (.time ms) => Query.IsLongest (Query.Within .time ms) all kept

/-- Whether the count of tracks that are asked for, if any, is a signed word. -/
def Smart.isCountable (smart : Smart) : Bool :=
  (smart.limit.bind Smart.Limit.maxItems).all (·.toNat < 0x8000000000000000)

/-- The budget for the rows of its query. -/
def Smart.budget (smart : Smart) : Query.Budget :=
  ofCaps (smart.limit.bind Smart.Limit.maxSize) (smart.limit.bind Smart.Limit.maxTime)

namespace Query

theorem limit_ofSmart (smart : Smart) (context : Context) :
    (ofSmart smart context).limit = smart.limit.bind Smart.Limit.maxItems := by
  rw [ofSmart]
  cases smart.limit <;> rfl

theorem budget_ofSmart (smart : Smart) (context : Context) :
    ofCaps (ofSmart smart context).maxSize (ofSmart smart context).maxTime = smart.budget := by
  rw [ofSmart, Smart.budget]
  cases smart.limit <;> rfl

end Query

namespace Store

variable {store : Store} {plan : Query.Plan} {smart : Smart} {context : Query.Context}
  {all : List Track}

/-- Of the rows of its query a smart playlist lists the longest start that its budget admits. -/
theorem smartTracks_of_yields?
    (h : (Query.ofSmart smart context).yields? plan store.library = some all) :
    ∃ kept, store.smartTracks plan smart context = .ok kept ∧
      Query.IsLongest smart.budget.Affords all kept := by
  have covered : smart.budget.IsCovered := isCovered_ofCaps _ _
  refine ⟨_, ?_, isLongest_takeFitting covered
    (fun track : Track => (track.size, track.totalTime)) all⟩
  rw [smartTracks, Smart.tracks?, Query.run?_eq, h, Query.budget_ofSmart]
  rfl

/-- Where a word holds the sums of all, a budget keeps what the limit says. -/
theorem keeps_of_isLongest {kept : List Track} (total : ∀ m, Query.HasTotal m all)
    (h : Query.IsLongest smart.budget.Affords
      (Query.counted (smart.limit.bind Smart.Limit.maxItems) all) kept) :
    smart.Keeps all kept := by
  obtain ⟨ruleset, _ | ⟨cap, field, descending⟩, live, checked⟩ := smart
  · exact h.eq_iff.mpr fun m => (total m).admits (by cases m <;> rfl)
  cases cap with
  | items count =>
    have rows : kept = all.take count.toNat := h.eq_iff.mpr fun m =>
      ((total m).sublist (List.take_sublist _ _)).admits (by cases m <;> rfl)
    exact rows.trans List.take_eq_take_min
  | size bytes => exact h.within rfl (fun k other => by cases k <;> trivial) total
  | time ms => exact h.within rfl (fun k other => by cases k <;> trivial) total

def sized (id : UInt64) (size : Int64) : Track :=
  { id := ⟨id⟩, location := some "file:///", size := some size }

def sizedTracks (sizes : List (UInt64 × Int64)) : Store :=
  sizes.foldl (fun store entry => store.writeTrack (sized entry.1 entry.2)) Store.empty

/-- All tracks, as long as they fit a size. -/
def fitting (bytes : UInt64) : Smart where
  ruleset := ⟨.and, []⟩
  limit := some ⟨.size bytes, .name, false⟩

/-- A smart playlist without a cap on size or time lists the rows of its query up to where tracks in
a row are together larger than a word, and a budget refuses a charge for a measure without a cap
only there. -/
theorem smartTracks_without_cap (store : Store) (plan : Query.Plan) (context : Query.Context)
    (maxSize maxTime : Option UInt64) :
    (∀ (smart : Smart) (all : List Track),
      smart.limit.bind Smart.Limit.maxSize = none → smart.limit.bind Smart.Limit.maxTime = none →
      (Query.ofSmart smart context).yields? plan store.library = some all →
      ∃ kept, store.smartTracks plan smart context = .ok kept ∧
        Query.IsLongest Query.NoOverrun all kept ∧ (kept = all ↔ Query.NoOverrun all)) ∧
    ∀ (charges : List Charge) (charge : Charge),
      let budget := ofCaps maxSize maxTime
      let left := budget.remaining charges
      budget.admissions (charges ++ [charge]) =
        budget.admissions charges ++ [(left.charge? charge.1 charge.2).isSome] ∧
      (left.charge? charge.1 charge.2 = none ↔ ∃ m, left.Refuses m charge) ∧
      ∀ m : Query.Measure, m.pick maxSize maxTime = none →
        (left.Refuses m charge ↔ ∃ run, run <:+ budget.granted charges ∧
          largest < (run.map (cost m)).sum + cost m charge) := by
  refine ⟨fun smart all size time yielded => ?_,
    fun charges charge => ⟨admissions_append _ _ _, ?_, fun m uncapped => ?_⟩⟩
  · obtain ⟨kept, answer, longest⟩ := smartTracks_of_yields? yielded
    rw [Smart.budget, size, time] at longest
    have longest : Query.IsLongest Query.NoOverrun all kept :=
      longest.congr fun tracks _ => Query.affords_iff_noOverrun tracks
    exact ⟨kept, answer, longest, longest.eq_iff⟩
  · exact charge?_eq_none_iff_refuses
      (isCovered_remaining (isCovered_ofCaps maxSize maxTime) charges) charge
  · exact refuses_remaining_iff uncapped charges charge

/-- Tracks that are together larger than a word. -/
def heavyTracks : Store := sizedTracks [(1, 9223372036854775807), (2, 1)]

theorem yields?_heavyTracks :
    (Query.ofSmart (unlimited .and []) epoch).yields? .stable heavyTracks.library =
      some [sized 1 9223372036854775807, sized 2 1] := by
  have found : (Query.ofSmart (unlimited .and []) epoch).matching heavyTracks.library =
      [sized 1 9223372036854775807, sized 2 1] := by decide
  rw [Query.yields?, if_neg (by decide), if_neg (by decide),
    Query.search_eq_matching (by decide), found]
  rfl

theorem smartTracks_without_cap_heavy :
    (∃ kept, heavyTracks.smartTracks .stable (unlimited .and []) epoch = .ok kept ∧
      kept ≠ [sized 1 9223372036854775807, sized 2 1]) ∧
    ((ofCaps none (some 10)).remaining [(some 9223372036854775807, some 1)]).Refuses .size
      (some 1, some 1) := by
  obtain ⟨lists, refuses⟩ := smartTracks_without_cap heavyTracks .stable epoch none (some 10)
  constructor
  · obtain ⟨kept, answer, -, whole⟩ := lists _ _ rfl rfl yields?_heavyTracks
    refine ⟨kept, answer, fun same => ?_⟩
    have sum := whole.mp same .size _ List.infix_rfl
    exact absurd sum (by decide)
  · refine ((refuses [(some 9223372036854775807, some 1)] (some 1, some 1)).2.2 .size rfl).mpr ?_
    exact ⟨[(some 9223372036854775807, some 1)], by decide, by decide⟩

/-- A playlist without any limit leaves a track out, and a budget without a cap on size refuses a
size. -/
theorem smartTracks_cut :
    (Query.ofSmart (unlimited .and []) epoch).yields? .stable heavyTracks.library =
        some [sized 1 9223372036854775807, sized 2 1] ∧
      heavyTracks.smartTracks .stable (unlimited .and []) epoch = .ok [sized 1 9223372036854775807] ∧
      (ofCaps none (some 10)).admissions
        [(some 9223372036854775807, some 1), (some 1, some 1)] = [true, false] := by
  refine ⟨yields?_heavyTracks, ?_, by decide⟩
  rw [smartTracks, Smart.tracks?, Query.run?_eq, yields?_heavyTracks]
  decide

end Store

end MusicLibrary
