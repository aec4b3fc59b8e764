import MusicLibrary.Proofs.Query.Leaf

/-! The condition that a query makes from a tree of rules holds of a track just when the tree does.
Each rule on a playlist has its own join; the joins of a part of the tree stand among those of the
whole, so the induction runs over a tree between any joins before it and any behind it. -/

namespace MusicLibrary.Query

open Smart Predicate

/-! Groups. -/

theorem allHold_cons (a : Option Bool) (rest : List (Option Bool)) :
    allHold (a :: rest) = both a (allHold rest) := by
  simp only [allHold, List.mem_cons]
  rcases a with _ | _ | _
  all_goals by_cases f : some false ∈ rest <;> by_cases n : none ∈ rest <;> simp [f, n, both]

theorem anyHolds_cons (a : Option Bool) (rest : List (Option Bool)) :
    anyHolds (a :: rest) = either a (anyHolds rest) := by
  simp only [anyHolds, List.mem_cons]
  rcases a with _ | _ | _
  all_goals by_cases t : some true ∈ rest <;> by_cases n : none ∈ rest <;> simp [t, n, either]

theorem truthOfParts_and (row : Row) (parts : List Predicate) :
    truthOfParts row .and parts = allHold (parts.map (truth row)) := by
  induction parts with
  | nil => rfl
  | cons p rest ih => rw [truthOfParts, conjoin, ih, List.map_cons, allHold_cons]

theorem truthOfParts_or (row : Row) (parts : List Predicate) :
    truthOfParts row .or parts = anyHolds (parts.map (truth row)) := by
  induction parts with
  | nil => rfl
  | cons p rest ih => rw [truthOfParts, conjoin, ih, List.map_cons, anyHolds_cons]

theorem truth_groupPredicate (row : Row) (conjunction : Conjunction) (parts : List Predicate) :
    truth row (groupPredicate conjunction parts) =
      conjunction.combine (parts.map (truth row)) := by
  cases parts with
  | nil => rfl
  | cons p rest =>
    cases conjunction with
    | and => exact truthOfParts_and row (p :: rest)
    | or => exact truthOfParts_or row (p :: rest)

/-! Playlists. -/

/-- A join finds something for a track just when the track is listed. -/
theorem isSome_found (library : Library) (track : Track) (playlist : Option PersistentId) :
    ((found library track (playlist.map PersistentId.key)).headD none).isSome =
      library.lists track playlist := by
  have own : library.lists track playlist = library.memberships.any fun m =>
      m.track == track.id.key && (playlist.map PersistentId.key).all (m.playlist == ·) := by
    cases playlist <;> rfl
  rw [own, Bool.eq_iff_iff, List.any_eq_true, found]
  cases members : library.memberships.filter fun m =>
      m.track == track.id.key && (playlist.map PersistentId.key).all (m.playlist == ·) with
  | nil => simpa [List.filter_eq_nil_iff] using members
  | cons m rest =>
    have inside : m ∈ m :: rest := List.mem_cons_self
    rw [← members, List.mem_filter] at inside
    exact ⟨fun _ => ⟨m, inside⟩, fun _ => rfl⟩

theorem truth_playlistPredicate {library : Library} {joins : List (Option Key)} {track : Track}
    {join : Nat} {c : Condition (Option PersistentId)}
    (own : joins[join]? = some (c.value.map PersistentId.key)) :
    truth (firstRow library joins track) (playlistPredicate join c) =
      some (c.askPlaylist library track) := by
  simp only [playlistPredicate, truth, firstRow, List.getElem?_map, own, Option.map_some,
    Option.join_some, isSome_found, Condition.askPlaylist, Sign.answer, Option.some.injEq]
  generalize library.lists track c.value = lists
  cases lists <;> cases c.value.isSome <;> cases c.sign.isNegated <;> rfl

/-! Trees. -/

variable (library : Library) (now : Timestamp) (track : Track)

theorem truth_onColumn {c : Condition V} {row : Row} {predicate : Track.Column → Predicate}
    {ask : Track.Column → Option Bool}
    (agree : ∀ column, c.field.column? = some column → truth row (predicate column) = ask column) :
    truth row (onColumn c.field predicate) = c.onColumn ask := by
  rw [onColumn, Condition.onColumn]
  cases found : c.field.column? with
  | none => rfl
  | some column => exact agree column found

/-- The rules of a list have their joins one behind the other. -/
theorem truths_ofRules {rules : List Rule}
    (each : ∀ rule ∈ rules, ∀ before after : List (Option Key),
      truth (firstRow library (before ++ joinsOfRule rule ++ after) track)
        (ofRule now before.length rule) = rule.truth library now track)
    (before after : List (Option Key)) :
    (ofRules now before.length rules).map
        (truth (firstRow library (before ++ joinsOfRules rules ++ after) track)) =
      rules.map (Rule.truth library now track) := by
  induction rules generalizing before with
  | nil => rfl
  | cons rule rest ih =>
    -- The joins of the rule are those in front of the rest, and the joins of the rest behind it.
    have first := each rule List.mem_cons_self before (joinsOfRules rest ++ after)
    have others := ih (fun r mem => each r (List.mem_cons_of_mem rule mem))
      (before ++ joinsOfRule rule)
    rw [List.length_append] at others
    simp only [ofRules, joinsOfRules, List.map_cons, List.append_assoc] at first others ⊢
    rw [first, others]

theorem truth_ofRule (rule : Rule) (kinds : rule.isWellKinded = true)
    (before after : List (Option Key)) :
    truth (firstRow library (before ++ joinsOfRule rule ++ after) track)
      (ofRule now before.length rule) = rule.truth library now track := by
  induction rule using Rule.induct generalizing before after with
  | group conjunction rules ih =>
    rw [Rule.isWellKinded, Rule.areWellKinded_eq, List.all_eq_true] at kinds
    rw [ofRule, joinsOfRule, Rule.truth, Rule.truths_eq, truth_groupPredicate,
      truths_ofRules library now track fun rule mem => ih rule mem (kinds rule mem)]
  | text c =>
    refine truth_onColumn fun column found => truth_textPredicate ?_ c
    rw [Field.type_of_column? found, of_decide_eq_true kinds]
  | integer c =>
    refine truth_onColumn fun column found => truth_integerPredicate ?_ c
    rw [Field.type_of_column? found, of_decide_eq_true kinds]
  | flag c =>
    refine truth_onColumn fun column found => truth_flagPredicate ?_ c
    rw [Rule.isWellKinded, Bool.or_eq_true, decide_eq_true_iff, decide_eq_true_iff] at kinds
    rcases kinds with kind | kind <;> rw [Field.type_of_column? found, kind]
  | date c =>
    refine truth_onColumn fun column found => truth_datePredicate ?_ now c
    rw [Field.type_of_column? found, of_decide_eq_true kinds]
  | mediaKind c => exact truth_mediaKindPredicate c
  | playlist c =>
    exact truth_playlistPredicate (by simp [joinsOfRule])
  | unknown c => rfl

end MusicLibrary.Query
