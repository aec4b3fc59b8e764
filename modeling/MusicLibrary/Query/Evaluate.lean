import MusicLibrary.Query.Budget
import MusicLibrary.Query.Plan

/-! What a query yields: the tracks that it selects, in order and within the caps. -/

namespace MusicLibrary

namespace Query

open Predicate

/-- All tracks that a query yields of those that it selects, in the order of a plan, before any
cap. -/
def ordered (query : Query) (plan : Plan) (library : Library) (tracks : List Track) : List Track :=
  plan.arrange query library (if query.distinct then firstOccurrences tracks else tracks)

/-- Whether the tracks are selected by their rows or by a search, the query yields the same. -/
theorem ordered_selected (query : Query) (plan : Plan) (library : Library) :
    query.ordered plan library (query.selected library) =
      query.ordered plan library (query.matching library) := by
  cases joins : query.joins with
  | nil => rw [selected_of_joins_eq_nil library joins]
  | cons => simp [ordered, distinct, joins, firstOccurrences_selected]

def maxHeight : Nat := 1000

def maxTables : Nat := 64

def maxParameters : Nat := 32766

/-- The depth of the expression that is tested on the rows. The condition stands beside the test for
a file, and the condition of every join is joined to both. -/
def height (query : Query) : Nat := 1 + max 3 query.condition.height + query.joins.length

/-- Whether the query can be run: the tables, the depth of the expression and the bound values are
bounded, and the count of tracks is a signed word. -/
def isRunnable (query : Query) : Bool :=
  query.joins.length < maxTables && query.height ≤ maxHeight &&
    query.parameters.length ≤ maxParameters && query.limit.all (·.toNat < 0x8000000000000000)

/-- The first tracks, as many as are asked for. -/
def counted (limit : Option UInt64) (tracks : List Track) : List Track :=
  match limit with
  | some count => tracks.take count.toNat
  | none => tracks

def capped (query : Query) (tracks : List Track) : List Track :=
  (Budget.ofCaps query.maxSize query.maxTime).takeFitting (fun t => (t.size, t.totalTime))
    (counted query.limit tracks)

/-- The tracks that the query yields by a plan, if it can be run. Where no track is asked for, none
is looked at. -/
def run? (query : Query) (plan : Plan) (library : Library) : Option (List Track) :=
  if !query.isRunnable then none
  else if query.limit = some 0 then some []
  else (query.search library).map fun tracks => query.capped (query.ordered plan library tracks)

/-- What is yielded are the tracks that the rows select, in order and within the caps. -/
theorem eq_capped_of_run? {query : Query} {plan : Plan} {library : Library} {tracks : List Track}
    (h : query.run? plan library = some tracks) :
    tracks = query.capped (query.ordered plan library (query.selected library)) := by
  unfold run? at h
  split at h
  · cases h
  split at h
  · rename_i none
    cases h
    rw [capped, none]
    rfl
  · obtain ⟨found, search, rfl⟩ := Option.map_eq_some_iff.mp h
    rw [ordered_selected, eq_matching_of_search search]

end Query

def Smart.tracks? (smart : Smart) (plan : Query.Plan) (library : Library)
    (context : Query.Context) : Option (List Track) :=
  (Query.ofSmart smart context).run? plan library

end MusicLibrary
