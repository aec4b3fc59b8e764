import MusicLibrary.Proofs.Query.Ties
import MusicLibrary.Proofs.Query.Tree
import MusicLibrary.Proofs.Text.Numeral
import MusicLibrary.Store.Basic

/-! A smart playlist without a limit lists the tracks of which its rules are true. The query says
the same as the tree of rules, at any depth and with any joins; it is answered unless it is too
large to be run. -/

namespace MusicLibrary

/-- The tracks with a file of which a set of rules is true. -/
def Smart.RuleSet.chosen (set : RuleSet) (library : Library) (now : Timestamp) : List Track :=
  library.tracks.filter fun track =>
    track.location.isSome && set.truth library now track == some true

/-- No track has a negative size or time, and signed words hold the sums of both. -/
structure Library.HasTotals (library : Library) : Prop where
  sizes : ∀ track ∈ library.tracks, 0 ≤ (track.size.getD 0).toInt
  times : ∀ track ∈ library.tracks, 0 ≤ (track.totalTime.getD 0).toInt
  size : (library.tracks.map fun track => (track.size.getD 0).toInt).sum < 9223372036854775808
  time : (library.tracks.map fun track => (track.totalTime.getD 0).toInt).sum < 9223372036854775808

namespace Query

open Smart Predicate

/-- The query of a set of rules finds the tracks of which the rules are true. -/
theorem matching_ofRuleSet {set : RuleSet} (kinds : set.isWellKinded = true) (context : Context)
    (library : Library) :
    (ofRuleSet set context).matching library = set.chosen library context.now := by
  refine List.filter_congr fun track _ => ?_
  rw [RuleSet.isWellKinded, List.all_eq_true] at kinds
  have rules := truths_ofRules library context.now track
    (fun rule mem => truth_ofRule library context.now track rule (kinds rule mem)) [] []
  rw [List.nil_append, List.append_nil] at rules
  have condition := truth_groupPredicate
    (firstRow library (joinsOfRules set.rules) track) set.conjunction
    (ofRules context.now 0 set.rules)
  rw [List.length_nil] at rules
  rw [rules] at condition
  rw [RuleSet.truth, ← condition]
  rfl

/-- In a library without repetitions a query finds no track twice. -/
theorem candidates_eq_matching {library : Library} (distinct : library.tracks.Nodup)
    (query : Query) : query.candidates library = query.matching library := by
  have part : (query.matching library).Sublist library.tracks := List.filter_sublist
  rw [candidates, firstOccurrences_of_nodup (part.nodup distinct), ite_self]

/-- Without caps nothing is cut. -/
theorem cutsBetween_nil {query : Query} {library : Library} {tracks : List Track}
    (limit : query.limit = none) (maxSize : query.maxSize = none) (maxTime : query.maxTime = none)
    (totals : library.HasTotals) (part : tracks.Sublist library.tracks) :
    query.CutsBetween tracks [] := by
  refine ⟨fun _ _ _ mem => absurd mem List.not_mem_nil, ?_, fun m track mem => ?_, fun m => ?_⟩
  · rw [limit, List.append_nil]
    rfl
  · cases m
    · exact totals.sizes track (part.subset mem)
    · exact totals.times track (part.subset mem)
  · rw [maxSize, maxTime]
    cases m
    · exact Int.le_of_lt_add_one <| Int.lt_of_le_of_lt
        ((part.map _).sum_le_sum (List.forall_mem_map.2 totals.sizes)) totals.size
    · exact Int.le_of_lt_add_one <| Int.lt_of_le_of_lt
        ((part.map _).sum_le_sum (List.forall_mem_map.2 totals.times)) totals.time

end Query

namespace Store

open Smart

def lonely : Track := { id := ⟨1⟩, location := some "file:///1" }

def listedTrack : Track := { id := ⟨3⟩, location := some "file:///3", genre := some "Jazz" }

/-- A library in which a playlist has one of two tracks twice. -/
def twoTracks : Store :=
  ((Store.empty.writeTrack lonely).writeTrack listedTrack).writeTrackIds ⟨2⟩ [⟨3⟩, ⟨3⟩]

def unlimited (conjunction : Conjunction) (rules : List Rule) : Smart where
  ruleset := ⟨conjunction, rules⟩

/-- Whether a track is in the playlist with the id 2, or is not. -/
def inPlaylist (sign : Sign) : Rule := .playlist ⟨.playlistPersistentId, sign, .is, some ⟨2⟩⟩

def naming (s : String) : Rule := .text ⟨.name, .strPos, .contains, [s]⟩

def epoch : Query.Context := ⟨⟨0⟩, 1⟩

def lonelyStore : Store := Store.empty.writeTrack lonely

def sealed : Rule := .unknown ⟨.cloudStatus, .pos, .is, ()⟩

/-- The rules choose tracks, but they are not what is answered. -/
def Unanswered (smart : Smart) (chosen : List Track) : Prop :=
  smart.limit = none ∧ smart.ruleset.isWellKinded = true ∧
    smart.ruleset.chosen lonelyStore.library epoch.now = chosen ∧
    ∀ plan, lonelyStore.smartTracks plan smart epoch = .error unanswerable

theorem smartTracks_of_not_isRunnable {store : Store} {smart : Smart} {context : Query.Context}
    (h : (Query.ofSmart smart context).isRunnable = false) (plan : Query.Plan) :
    store.smartTracks plan smart context = .error unanswerable := by
  rw [smartTracks, Smart.tracks?, Query.run?, h]
  rfl

theorem smartTracks_of_long {s : String} (long : Query.maxPatternSize ≤ s.utf8ByteSize)
    (plan : Query.Plan) :
    lonelyStore.smartTracks plan (unlimited .and [naming s]) epoch = .error unanswerable := by
  have size : Query.maxPatternSize < ("%" ++ s ++ "%").utf8ByteSize := by
    have percent : "%".utf8ByteSize = 1 := by decide
    rw [String.utf8ByteSize_append, String.utf8ByteSize_append, percent]
    omega
  have arranged : (Query.ofSmart (unlimited .and [naming s]) epoch).condition.arranged =
      [.like .name ("%" ++ s ++ "%") false] := List.mergeSort_singleton _
  have search : (Query.ofSmart (unlimited .and [naming s]) epoch).search lonelyStore.library =
      none := by
    have rows : lonelyStore.library.tracks = [lonely] := rfl
    have file : lonely.location.isNone = false := rfl
    rw [Query.search, arranged, rows, Query.filter?, Query.keeps?, file, if_neg Bool.false_ne_true,
      Query.Predicate.testAll, Query.Predicate.test, if_pos size]
    rfl
  rw [smartTracks, Smart.tracks?, Query.run?, search]
  rfl

end Store

end MusicLibrary
