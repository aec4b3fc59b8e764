import MusicLibrary.Proofs.Query.Allowance
import MusicLibrary.Proofs.Query.Answer

/-! What the order of tied tracks can change. Every plan yields the same tracks before any cap, and
the same list where the query tells all of them apart; caps that part tracks of different rank keep
the same ones. -/

namespace MusicLibrary

open Query.Budget

def Track.cost (m : Query.Measure) (track : Track) : Int :=
  Query.Budget.cost m (track.size, track.totalTime)

namespace Query

variable {query : Query} {library : Library} {tracks : List Track}

/-- The tracks that a query finds, each of them once if the query asks for that. -/
def candidates (query : Query) (library : Library) : List Track :=
  if query.distinct then firstOccurrences (query.matching library) else query.matching library

theorem ordered_matching (query : Query) (plan : Plan) (library : Library) :
    query.ordered plan library (query.matching library) =
      plan.arrange query library (query.candidates library) := rfl

theorem foldl_addUnseen_sublist [BEq α] (items seen : List α) :
    (items.foldl addUnseen seen).reverse.Sublist (seen.reverse ++ items) := by
  induction items generalizing seen with
  | nil => simp
  | cons a rest ih =>
    rw [List.foldl_cons, addUnseen]
    split
    · exact (ih seen).trans ((List.sublist_cons_self a rest).append_left _)
    · simpa using ih (a :: seen)

theorem firstOccurrences_sublist [BEq α] (items : List α) :
    (firstOccurrences items).Sublist items :=
  foldl_addUnseen_sublist items []

theorem candidates_sublist (query : Query) (library : Library) :
    (query.candidates library).Sublist library.tracks := by
  have part : (query.matching library).Sublist library.tracks := List.filter_sublist
  rw [candidates]
  cases query.distinct with
  | true => exact (firstOccurrences_sublist _).trans part
  | false => exact part

/-- The query tells of any two of the tracks which one comes first. -/
def TellsApart (query : Query) (tracks : List Track) : Prop :=
  ∀ a ∈ tracks, ∀ b ∈ tracks,
    query.mayPrecede a b = true → query.mayPrecede b a = true → a = b

instance (query : Query) (tracks : List Track) : Decidable (query.TellsApart tracks) :=
  inferInstanceAs (Decidable (∀ a ∈ _, ∀ b ∈ _, _))

namespace Plan

/-- Where no tracks are tied all plans agree. -/
theorem arrange_eq (plan plan' : Plan) {other : Query} (order : other.order = query.order)
    (apart : query.TellsApart tracks) :
    plan'.arrange other library tracks = plan.arrange query library tracks := by
  have same : other.mayPrecede = query.mayPrecede := by
    funext a b
    rw [mayPrecede, mayPrecede, order]
  have sorted := plan'.respects other library tracks
  rw [same] at sorted
  have perm := plan'.perm other library tracks
  refine List.Perm.eq_of_pairwise (fun a b left right => ?_) sorted
    (plan.respects query library tracks) (perm.trans (plan.perm query library tracks).symm)
  exact apart a (perm.mem_iff.mp left) b ((plan.perm query library tracks).mem_iff.mp right)

theorem arrange_of_length_le (plan : Plan) (query : Query) (library : Library)
    (single : tracks.length ≤ 1) : plan.arrange query library tracks = tracks := by
  have perm := plan.perm query library tracks
  cases tracks with
  | nil => exact perm.eq_nil
  | cons a rest =>
    have empty : rest = [] := by
      rw [List.length_cons] at single
      exact List.length_eq_zero_iff.mp (by omega)
    subst empty
    exact List.perm_singleton.mp perm

/-- The plan that goes about every query as another plan goes about a given one. -/
def following (plan : Plan) (query : Query) : Plan where
  arrange other := plan.arrange { query with order := other.order }
  perm other := plan.perm { query with order := other.order }
  respects other := plan.respects { query with order := other.order }

theorem arrange_following (plan : Plan) {query other : Query} (order : other.order = query.order) :
    (plan.following query).arrange other = plan.arrange query := by
  simp only [following, order]

end Plan

/-! Cuts. -/

/-- The caps of a query keep some tracks and leave others out, and no track that is left out may
come before one that is kept. -/
structure CutsBetween (query : Query) (kept others : List Track) : Prop where
  ranks : ∀ a ∈ kept, ∀ b ∈ others, query.mayPrecede b a = false
  count : counted query.limit (kept ++ others) = kept
  low : ∀ m, ∀ track ∈ kept, 0 ≤ track.cost m
  room : ∀ m, (kept.map (Track.cost m)).sum ≤ (ofCaps query.maxSize query.maxTime).left m

/-- In an arrangement the items that come before all others are the first ones. -/
theorem filter_append_filter {α : Type} {le : α → α → Bool} {p : α → Bool} {items : List α}
    (sorted : items.Pairwise (le · ·))
    (ranks : ∀ a ∈ items, ∀ b ∈ items, p a = true → p b = false → le b a = false) :
    items.filter p ++ items.filter (!p ·) = items := by
  induction items with
  | nil => rfl
  | cons a rest ih =>
    obtain ⟨first, behind⟩ := List.pairwise_cons.mp sorted
    have others := ih behind fun b left c right =>
      ranks b (List.mem_cons_of_mem a left) c (List.mem_cons_of_mem a right)
    cases own : p a with
    | true => simpa [own] using others
    | false =>
      have none : rest.filter p = [] := by
        refine List.filter_eq_nil_iff.mpr fun b mem holds => ?_
        have back := ranks b (List.mem_cons_of_mem a mem) a List.mem_cons_self holds own
        exact Bool.false_ne_true (back.symm.trans (first b mem))
      rw [none, List.nil_append] at others
      simp [own, none, others]

/-- However tied tracks are arranged, the first ones are those that come before all others. -/
theorem take_perm {kept others arranged : List Track} (perm : arranged.Perm (kept ++ others))
    (sorted : arranged.Pairwise (query.mayPrecede · ·))
    (ranks : ∀ a ∈ kept, ∀ b ∈ others, query.mayPrecede b a = false) :
    (arranged.take kept.length).Perm kept := by
  have outside : ∀ b ∈ others, b ∉ kept := by
    intro b right left
    have reflexive := query.mayPrecede_total b b
    rw [ranks b left b right] at reflexive
    exact Bool.false_ne_true reflexive
  have whole := filter_append_filter (p := fun a => decide (a ∈ kept)) sorted
    fun a left b right inside behind => by
      refine ranks a (by simpa using inside) b ?_
      have member := perm.mem_iff.mp right
      simp_all
  have first : (arranged.filter fun a => decide (a ∈ kept)).Perm kept := by
    refine (perm.filter _).trans (.of_eq ?_)
    rw [List.filter_append, List.filter_eq_self.mpr (by simp),
      List.filter_eq_nil_iff.mpr (by simpa using outside), List.append_nil]
  have start : arranged.take kept.length = arranged.filter fun a => decide (a ∈ kept) := by
    conv_lhs => rw [← whole]
    exact List.take_left' first.length_eq
  exact start ▸ first

/-- Caps that part tracks of different rank keep the same ones in every arrangement. -/
theorem CutsBetween.capped_perm {kept others arranged : List Track}
    (cut : query.CutsBetween kept others) (perm : arranged.Perm (kept ++ others))
    (sorted : arranged.Pairwise (query.mayPrecede · ·)) :
    (query.capped arranged).Perm kept := by
  have rows : (counted query.limit arranged).Perm kept := by
    have first := take_perm perm sorted cut.ranks
    have count := cut.count
    cases limit : query.limit with
    | none =>
      rw [limit] at count
      rw [List.append_right_eq_self.mp count, List.append_nil] at perm
      exact perm
    | some limit' =>
      rw [limit] at count
      -- The limit is the number of the tracks that are kept, or there are no others.
      have length : ((kept ++ others).take limit'.toNat).length = kept.length :=
        congrArg List.length count
      have all := perm.length_eq
      rw [List.length_take] at length
      have same : arranged.take limit'.toNat = arranged.take kept.length := by
        rw [List.take_eq_take_iff]
        omega
      rw [counted, same]
      exact first
  have low : ∀ m, ∀ track ∈ counted query.limit arranged, 0 ≤ track.cost m :=
    fun m track mem => cut.low m track (rows.mem_iff.mp mem)
  have room : ∀ m, ((counted query.limit arranged).map (Track.cost m)).sum ≤
      (ofCaps query.maxSize query.maxTime).left m :=
    fun m => (rows.map (Track.cost m)).sum_eq ▸ cut.room m
  have all : query.capped arranged = counted query.limit arranged :=
    takeFitting_eq_self (low .size) (low .time) (room .size) (room .time)
  exact all ▸ rows

end Query

end MusicLibrary
