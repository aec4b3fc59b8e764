import MusicLibrary.Proofs.Query.SmartTracks

/-! A rule and its negation. Every leaf puts one question to a track, and the sign of the rule only
turns the answer round: of a rule and its negation exactly one selects a track. Neither does if the
question is about a value that the track does not have; a rule that asks whether there is a value,
and a rule on playlists, is always answered. -/

namespace MusicLibrary

namespace Smart

/-- The column of an attribute, if it holds values of the type. -/
def Field.columnOf? (type : FieldType) (field : Field) : Option Track.Column :=
  field.column?.filter fun column => column.type = type

namespace Rule

/-- The rule under another sign; a group has none. -/
def withSign (sign : Sign) : Rule → Rule
  | .group conjunction rules => .group conjunction rules
  | .text c => .text { c with sign }
  | .integer c => .integer { c with sign }
  | .flag c => .flag { c with sign }
  | .date c => .date { c with sign }
  | .mediaKind c => .mediaKind { c with sign }
  | .playlist c => .playlist { c with sign }
  | .unknown c => .unknown { c with sign }

/-- The column that a rule tests, if it holds values of the rule's type. Whatever attribute a rule
on media kinds names, it tests the media kind. -/
def column? : Rule → Option Track.Column
  | .text c => c.field.columnOf? .text
  | .integer c => c.field.columnOf? .integer
  | .flag c => c.field.columnOf? .flag
  | .date c => c.field.columnOf? .time
  | .mediaKind _ => some .mediaKind
  | .group .. | .playlist _ | .unknown _ => none

/-- Whether a rule tests a column of its type, or is on playlists. -/
def hasSubject : Rule → Bool
  | .playlist _ => true
  | rule => rule.column?.isSome

/-- Whether a rule carries no value to test with. -/
def lacksValue : Rule → Bool
  | .text c => c.value.isEmpty
  | .integer c => c.value.isEmpty
  | .flag c => c.value.isNone
  | .date c => c.value.isEmpty
  | .mediaKind c => c.value.isNone
  | .playlist c => c.value.isNone
  | .group .. | .unknown _ => true

/-- Whether a track has an answer to a rule: a value is not compared with one that is missing. -/
def isAnswered (track : Track) (rule : Rule) : Bool :=
  rule.lacksValue || rule.column?.all fun column => (track.get column).isSome

end Rule

/-- The pattern of a rule on a part of a text. -/
def Condition.pattern? (c : Condition (List String)) : Option String :=
  match c.value, c.operator with
  | first :: _, .contains => some ("%" ++ first ++ "%")
  | first :: _, .startsWith => some (first ++ "%")
  | first :: _, .endsWith => some ("%" ++ first)
  | _, _ => none

def Rule.pattern? : Rule → Option String
  | .text c => c.pattern?
  | _ => none

def Rule.hasLongPattern (rule : Rule) : Bool :=
  rule.pattern?.any fun pattern => Query.maxPatternSize < pattern.utf8ByteSize

/-! Questions. -/

/-- The sign of a question turns its answer round, if there is one. -/
structure SignTurns (ask : Sign → Option Bool) (known : Bool) : Prop where
  turned : ∀ sign, ask sign = (ask .pos).map sign.answer
  isSome : (ask .pos).isSome = known

theorem SignTurns.ofKnown (b : Bool) : SignTurns (fun sign => some (sign.answer b)) true where
  turned sign := by simp [Sign.answer, Sign.isNegated]
  isSome := rfl

theorem SignTurns.ofHeld (held : Option α) (p : α → Bool) :
    SignTurns (fun sign => held.map fun a => sign.answer (p a)) held.isSome where
  turned sign := by cases held <;> simp [Sign.answer, Sign.isNegated]
  isSome := Option.isSome_map

/-- Under a sign that negates a question is answered in the negative where it was not before. -/
theorem SignTurns.complement {ask : Sign → Option Bool} {known : Bool}
    (turns : SignTurns ask known) {positive negative : Sign}
    (plain : positive.isNegated = false) (negated : negative.isNegated = true) :
    if known then (ask negative == some true) = !(ask positive == some true)
    else (ask positive == some true) = false ∧ (ask negative == some true) = false := by
  obtain ⟨turned, rfl⟩ := turns
  rw [turned positive, turned negative]
  cases ask .pos with
  | none => exact ⟨rfl, rfl⟩
  | some b => cases b <;> simp [Sign.answer, plain, negated]

theorem signTurns_askText (c : Condition (List String)) (held : Option String) :
    SignTurns (fun sign => Condition.askText { c with sign } held)
      (c.value.isEmpty || held.isSome) := by
  obtain ⟨field, sign, operator, values⟩ := c
  cases values with
  | nil => exact .ofKnown _
  | cons first rest =>
    simp only [Condition.askText]
    exact .ofHeld held _

theorem signTurns_askInteger (c : Condition (List Int64)) (held : Option Int64) :
    SignTurns (fun sign => Condition.askInteger { c with sign } held)
      (c.value.isEmpty || held.isSome) := by
  obtain ⟨field, sign, operator, values⟩ := c
  cases values with
  | nil => exact .ofKnown _
  | cons first rest =>
    simp only [Condition.askInteger]
    exact .ofHeld held _

theorem signTurns_askDate (now : Timestamp) (c : Condition (List Timestamp))
    (held : Option Timestamp) :
    SignTurns (fun sign => Condition.askDate now { c with sign } held)
      (c.value.isEmpty || held.isSome) := by
  obtain ⟨field, sign, operator, times⟩ := c
  cases times with
  | nil => exact .ofKnown _
  | cons first rest =>
    simp only [Condition.askDate]
    exact .ofHeld held _

theorem signTurns_askFlag (c : Condition (Option Bool)) (held : Option Bool) :
    SignTurns (fun sign => Condition.askFlag { c with sign } held)
      (c.value.isNone || held.isSome) := by
  obtain ⟨field, sign, operator, value⟩ := c
  cases value with
  | none => exact .ofKnown _
  | some flag => exact .ofHeld held _

theorem signTurns_askMediaKind (c : Condition (Option MediaKind)) (held : Option MediaKind) :
    SignTurns (fun sign => Condition.askMediaKind { c with sign } held)
      (c.value.isNone || held.isSome) := by
  obtain ⟨field, sign, operator, value⟩ := c
  cases value with
  | none => exact .ofKnown _
  | some kind =>
    simp only [Condition.askMediaKind]
    exact .ofHeld held _

end Smart

namespace Query

open Smart Predicate

/-! Rules. -/

theorem isSome_read {track : Track} {column : Track.Column} {type : FieldType}
    (h : column.type = type) : (track.read type column).isSome = (track.get column).isSome := by
  subst h
  simp [Track.read]

/-- A rule on a column of its type puts its question to the value of that column. -/
theorem signTurns_onColumn {row : Row} {c : Condition V} {type : FieldType}
    {predicate : Track.Column → Condition V → Predicate}
    {ask : Condition V → Option type.Value → Option Bool} {lacksValue : Bool}
    (subject : (c.field.columnOf? type).isSome)
    (agree : ∀ column, column.type = type →
      ∀ c, truth row (predicate column c) = ask c (row.track.read type column))
    (turns : ∀ held, SignTurns (fun sign => ask { c with sign } held) (lacksValue || held.isSome)) :
    SignTurns
      (fun sign => truth row (onColumn c.field fun column => predicate column { c with sign }))
      (lacksValue || (c.field.columnOf? type).all fun column => (row.track.get column).isSome) := by
  obtain ⟨column, found⟩ := Option.isSome_iff_exists.1 subject
  have ⟨own, typed⟩ := Option.filter_eq_some_iff.1 found
  have same : column.type = type := of_decide_eq_true typed
  rw [found, Option.all_some, ← isSome_read same]
  simp only [onColumn, own, agree column same]
  exact turns _

/-- A join finds a playlist or it does not. -/
theorem signTurns_playlistPredicate (row : Row) (join : Nat)
    (c : Condition (Option PersistentId)) :
    SignTurns (fun sign => truth row (playlistPredicate join { c with sign })) true := by
  have answer : ∀ sign : Sign, truth row (playlistPredicate join { c with sign }) =
      some (sign.answer ((row.found[join]?.join).isSome == c.value.isSome)) := by
    intro sign
    rw [playlistPredicate, truth, Sign.answer]
    generalize (row.found[join]?.join).isSome = found
    cases found <;> cases c.value.isSome <;> cases sign.isNegated <;> rfl
  simp only [answer]
  exact .ofKnown _

/-- On any row the condition of a rule is a question that the sign of the rule turns round. -/
theorem signTurns_ofRule (row : Row) (now : Timestamp) (join : Nat) {rule : Rule}
    (subject : rule.hasSubject = true) :
    SignTurns (fun sign => truth row (ofRule now join (rule.withSign sign)))
      (rule.isAnswered row.track) := by
  cases rule with
  | group | unknown => cases subject
  | text c =>
    exact signTurns_onColumn subject (fun _ => truth_textPredicate) (signTurns_askText c)
  | integer c =>
    exact signTurns_onColumn subject (fun _ => truth_integerPredicate) (signTurns_askInteger c)
  | flag c =>
    exact signTurns_onColumn subject (fun _ => truth_flagPredicate) (signTurns_askFlag c)
  | date c =>
    exact signTurns_onColumn subject (fun _ type => truth_datePredicate type now)
      (signTurns_askDate now c)
  | mediaKind c =>
    have turns := signTurns_askMediaKind c row.track.mediaKind
    simp only [← truth_mediaKindPredicate] at turns
    exact turns
  | playlist c =>
    have answered : (Rule.playlist c).isAnswered row.track = true := Bool.or_true _
    rw [answered]
    exact signTurns_playlistPredicate row join c

/-! Tests. -/

theorem test_of_isShort (row : Row) {p : Predicate} (short : p.IsShort) :
    test row p = some (holds row p) := by
  obtain ⟨b, tested⟩ := Option.isSome_iff_exists.1 (isSome_test row p short)
  rw [tested, test_sound row p tested]

theorem textPredicate_of_pattern? (column : Track.Column) {c : Condition (List String)}
    {pattern : String} (h : c.pattern? = some pattern) :
    textPredicate column c = .like column pattern c.sign.isNegated := by
  obtain ⟨field, sign, operator, values⟩ := c
  cases values with
  | nil => cases h
  | cons first rest => cases operator <;> cases h <;> rfl

theorem patterns_compareOperands (column : Track.Column) (operator : Operator) (negated : Bool)
    (operands : Operands) : (compareOperands column operator negated operands).patterns = [] := by
  cases operator <;> rfl

theorem patterns_textPredicate (column : Track.Column) {c : Condition (List String)}
    (h : c.pattern? = none) : (textPredicate column c).patterns = [] := by
  obtain ⟨field, sign, operator, values⟩ := c
  cases values with
  | nil => rfl
  | cons first rest => cases operator <;> first | rfl | cases h

theorem patterns_integerPredicate (column : Track.Column) (c : Condition (List Int64)) :
    (integerPredicate column c).patterns = [] := by
  rw [integerPredicate]
  split
  · rfl
  · exact patterns_compareOperands ..

theorem patterns_datePredicate (now : Timestamp) (column : Track.Column)
    (c : Condition (List Timestamp)) : (datePredicate now column c).patterns = [] := by
  rw [datePredicate]
  split
  · rfl
  · exact patterns_integerPredicate ..

theorem patterns_flagPredicate (column : Track.Column) (c : Condition (Option Bool)) :
    (flagPredicate column c).patterns = [] := by
  rw [flagPredicate]
  split <;> rfl

theorem patterns_mediaKindPredicate (c : Condition (Option MediaKind)) :
    (mediaKindPredicate c).patterns = [] := by
  rw [mediaKindPredicate]
  split
  · rfl
  · split <;> rfl

theorem patterns_onColumn {field : Smart.Field} {predicate : Track.Column → Predicate}
    (each : ∀ column, (predicate column).patterns = []) :
    (onColumn field predicate).patterns = [] := by
  rw [onColumn]
  split
  · exact each _
  · rfl

/-- Only a rule on a part of a text has a pattern. -/
theorem patterns_ofRule (now : Timestamp) (join : Nat) {rule : Rule}
    (subject : rule.hasSubject = true) (h : rule.pattern? = none) :
    (ofRule now join rule).patterns = [] := by
  cases rule with
  | group => cases subject
  | text c => exact patterns_onColumn fun column => patterns_textPredicate column h
  | integer c => exact patterns_onColumn fun column => patterns_integerPredicate column c
  | flag c => exact patterns_onColumn fun column => patterns_flagPredicate column c
  | date c => exact patterns_onColumn fun column => patterns_datePredicate now column c
  | mediaKind c => exact patterns_mediaKindPredicate c
  | playlist | unknown => rfl

/-- A rule with a pattern is on a column, and matches it with that pattern. -/
theorem ofRule_of_pattern? (now : Timestamp) (join : Nat) {rule : Rule} {pattern : String}
    (subject : rule.hasSubject = true) (h : rule.pattern? = some pattern) :
    ∃ column negated, ofRule now join rule = .like column pattern negated := by
  cases rule with
  | text c =>
    obtain ⟨column, found⟩ := Option.isSome_iff_exists.1 subject
    have own : c.field.column? = some column := (Option.filter_eq_some_iff.1 found).1
    refine ⟨column, c.sign.isNegated, ?_⟩
    rw [ofRule, onColumn, own]
    exact textPredicate_of_pattern? column h
  | _ => cases h

theorem isShort_ofRule (now : Timestamp) (join : Nat) {rule : Rule}
    (subject : rule.hasSubject = true) (short : rule.hasLongPattern = false) :
    (ofRule now join rule).IsShort := by
  rw [Rule.hasLongPattern] at short
  cases found : rule.pattern? with
  | none => simp [IsShort, patterns_ofRule now join subject found]
  | some pattern =>
    obtain ⟨column, negated, like⟩ := ofRule_of_pattern? now join subject found
    simpa [like, IsShort, patterns, found] using short

/-- A rule can be tested unless its pattern is too long. -/
theorem test_ofRule (row : Row) (now : Timestamp) (join : Nat) {rule : Rule}
    (subject : rule.hasSubject = true) :
    test row (ofRule now join rule) =
      if rule.hasLongPattern then none else some (holds row (ofRule now join rule)) := by
  cases long : rule.hasLongPattern with
  | false => exact test_of_isShort row (isShort_ofRule now join subject long)
  | true =>
    obtain ⟨pattern, found, size⟩ := (Option.any_eq_true _ _).1 long
    obtain ⟨column, negated, like⟩ := ofRule_of_pattern? now join subject found
    rw [like, test, if_pos (of_decide_eq_true size)]
    rfl

@[simp] theorem hasSubject_withSign (rule : Rule) (sign : Sign) :
    (rule.withSign sign).hasSubject = rule.hasSubject := by
  cases rule <;> rfl

@[simp] theorem hasLongPattern_withSign (rule : Rule) (sign : Sign) :
    (rule.withSign sign).hasLongPattern = rule.hasLongPattern := by
  cases rule <;> rfl

/-- On any row exactly one of a rule and its negation holds, or neither if there is no answer. -/
theorem holds_withSign (row : Row) (now : Timestamp) (join : Nat) {rule : Rule}
    (subject : rule.hasSubject = true) {positive negative : Sign}
    (plain : positive.isNegated = false) (negated : negative.isNegated = true) :
    if rule.isAnswered row.track then
      holds row (ofRule now join (rule.withSign negative)) =
        !holds row (ofRule now join (rule.withSign positive))
    else
      holds row (ofRule now join (rule.withSign positive)) = false ∧
        holds row (ofRule now join (rule.withSign negative)) = false :=
  (signTurns_ofRule row now join subject).complement plain negated

/-- Of a rule and its negation exactly one selects a track that has an answer to it, and neither
selects any other, with whatever joins they are tested. If the pattern of the rule is too long
neither can be tested. -/
theorem complement_withSign {rule : Rule} (subject : rule.hasSubject = true)
    {positive negative : Sign} (plain : positive.isNegated = false)
    (negated : negative.isNegated = true) (library : Library) (joins : List (Option Key))
    (track : Track) (now : Timestamp) (join : Nat) :
    let tested := fun sign row => test row (ofRule now join (rule.withSign sign))
    if rule.hasLongPattern then
      ∀ row ∈ rows library joins track, tested positive row = none ∧ tested negative row = none
    else
      ∃ a b, (∀ row ∈ rows library joins track,
          tested positive row = some a ∧ tested negative row = some b) ∧
        if rule.isAnswered track then b = !a else a = false ∧ b = false := by
  intro tested
  have tests : ∀ sign row, tested sign row =
      if rule.hasLongPattern then none
      else some (holds row (ofRule now join (rule.withSign sign))) := by
    intro sign row
    have test := test_ofRule row now join ((hasSubject_withSign rule sign).trans subject)
    rwa [hasLongPattern_withSign] at test
  simp only [tests]
  split
  · exact fun row _ => ⟨rfl, rfl⟩
  · -- All rows of a track answer as the first one does.
    let first := firstRow library joins track
    refine ⟨holds first (ofRule now join (rule.withSign positive)),
      holds first (ofRule now join (rule.withSign negative)), fun row mem => ?_,
      holds_withSign first now join subject plain negated⟩
    exact ⟨congrArg some (holds_of_mem_rows mem _).2, congrArg some (holds_of_mem_rows mem _).2⟩

open Store in
/-- A track that is twice in a playlist is selected by the rule on it and not by the negation; a
track without a name is selected neither by a rule on a name nor by the negation. -/
theorem complement_withSign_twoTracks :
    let tested := fun rule sign row => test row (ofRule ⟨0⟩ 0 (Rule.withSign sign rule))
    (∀ row ∈ rows twoTracks.library [some 2] listedTrack,
      tested (inPlaylist .pos) .pos row = some true ∧
        tested (inPlaylist .pos) .neg row = some false) ∧
    ∀ row ∈ rows twoTracks.library [] lonely,
      tested (naming "a") .strPos row = some false ∧
        tested (naming "a") .strNeg row = some false := by
  have listed := complement_withSign (rfl : (inPlaylist .pos).hasSubject = true)
    (rfl : Sign.pos.isNegated = false) (rfl : Sign.neg.isNegated = true) twoTracks.library [some 2]
    listedTrack ⟨0⟩ 0
  have nameless := complement_withSign (rfl : (naming "a").hasSubject = true)
    (rfl : Sign.strPos.isNegated = false) (rfl : Sign.strNeg.isNegated = true) twoTracks.library []
    lonely ⟨0⟩ 0
  have short : ¬ (inPlaylist .pos).hasLongPattern = true := by decide
  have alsoShort : ¬ (naming "a").hasLongPattern = true := by decide
  have answered : (inPlaylist .pos).isAnswered listedTrack = true := rfl
  have unanswered : ¬ (naming "a").isAnswered lonely = true := by decide
  simp only [if_neg short, if_pos answered] at listed
  simp only [if_neg alsoShort, if_neg unanswered] at nameless
  obtain ⟨a, _, tests, rfl⟩ := listed
  obtain ⟨_, _, namelessTests, rfl, rfl⟩ := nameless
  have mem : Row.mk listedTrack [some 2] ∈ rows twoTracks.library [some 2] listedTrack :=
    List.mem_cons_self
  obtain rfl : true = a := Option.some.inj (tests _ mem).1
  exact ⟨tests, namelessTests⟩

/-! Queries of one rule. -/

/-- A query of one rule matches the tracks on which the rule holds. -/
theorem matching_ofRule (conjunction : Conjunction) (rule : Rule) (context : Context)
    (library : Library) :
    (ofRuleSet ⟨conjunction, [rule]⟩ context).matching library =
      library.tracks.filter fun track => track.location.isSome &&
        holds (firstRow library (joinsOfRule rule) track) (ofRule context.now 0 rule) := by
  refine List.filter_congr fun track _ => ?_
  have joins : joinsOfRules [rule] = joinsOfRule rule := List.append_nil _
  have alone : ∀ row p, holds row (.group conjunction [p]) = holds row p := by
    intro row p
    rw [holds, truth, truthOfParts, truthOfParts, conjoin_neutral]
    rfl
  rw [ofRuleSet, joins]
  exact congrArg _ (alone _ _)

theorem filter?_eq_none {test : α → Option Bool} {items : List α} {a : α} (mem : a ∈ items)
    (h : test a = none) : filter? test items = none := by
  induction mem with
  | head rest => simp [filter?, h]
  | tail b _ ih => cases first : test b <;> simp [filter?, first, ih]

/-- The query of a rule with a pattern that is too long has no answer, if there is a track with a
file to test. -/
theorem search_of_hasLongPattern {rule : Rule} (subject : rule.hasSubject = true)
    (long : rule.hasLongPattern = true) (conjunction : Conjunction) (context : Context)
    {library : Library} {track : Track} (mem : track ∈ library.tracks)
    (file : track.location.isSome) :
    (ofRuleSet ⟨conjunction, [rule]⟩ context).search library = none := by
  obtain ⟨pattern, found, size⟩ := (Option.any_eq_true _ _).1 long
  obtain ⟨column, negated, like⟩ := ofRule_of_pattern? context.now 0 subject found
  have condition : (ofRuleSet ⟨conjunction, [rule]⟩ context).condition =
      .group conjunction [.like column pattern negated] := by
    rw [ofRuleSet, ofRules, ofRules, like]
    rfl
  have arranged : (ofRuleSet ⟨conjunction, [rule]⟩ context).condition.arranged =
      [.like column pattern negated] := by
    have alone : conjunction = .and ∨ [Predicate.like column pattern negated].length = 1 := .inr rfl
    rw [condition, Predicate.arranged, conjuncts, if_pos alone]
    exact List.mergeSort_singleton _
  refine filter?_eq_none mem ?_
  rw [keeps?, arranged, Option.isNone_eq_false_iff.2 file, if_neg Bool.false_ne_true, testAll, test,
    if_pos (of_decide_eq_true size)]

end Query

namespace Store

open Smart

/-- Whether a name has a long text in it, or has not. -/
def naming50000 (sign : Sign) : Rule :=
  .text ⟨.name, sign, .contains, [String.ofList (List.replicate 50000 'a')]⟩

def titled : Track := { id := ⟨1⟩, location := some "file:///1", name := some "Song" }

theorem hasLongPattern_contains {s : String} (long : Query.maxPatternSize ≤ s.utf8ByteSize)
    (field : Field) (sign : Sign) :
    (Rule.text ⟨field, sign, .contains, [s]⟩).hasLongPattern = true := by
  have size : Query.maxPatternSize < ("%" ++ s ++ "%").utf8ByteSize := by
    have percent : "%".utf8ByteSize = 1 := by decide
    rw [String.utf8ByteSize_append, String.utf8ByteSize_append, percent]
    omega
  exact decide_eq_true size

theorem hasLongPattern_naming50000 (sign : Sign) : (naming50000 sign).hasLongPattern = true := by
  refine hasLongPattern_contains ?_ .name sign
  rw [Text.utf8ByteSize_ofList, List.length_replicate]
  · exact Nat.le_refl 50000
  · intro c mem
    rw [List.eq_of_mem_replicate mem]
    rfl

/-- A text of fifty thousand letters is not searched for in any name, under whatever sign. -/
theorem unanswered_naming50000 :
    let store := Store.empty.writeTrack titled
    titled.name.isSome ∧ ∀ sign ∈ [Sign.pos, .strPos, .neg, .strNeg],
      (naming50000 sign).hasSubject = true ∧
      (∀ row ∈ Query.rows store.library [] titled,
        Query.Predicate.test row (Query.ofRule epoch.now 0 (naming50000 sign)) = none) ∧
      ∀ plan, store.smartTracks plan (unlimited .and [naming50000 sign]) epoch =
        .error unanswerable := by
  intro store
  refine ⟨rfl, fun sign _ => ⟨rfl, fun row _ => ?_, fun plan => ?_⟩⟩
  · rw [Query.test_ofRule row epoch.now 0 rfl, hasLongPattern_naming50000]
    rfl
  · have rows : store.library.tracks = [titled] := rfl
    have mem : titled ∈ store.library.tracks := rows ▸ List.mem_singleton_self titled
    have search := Query.search_of_hasLongPattern rfl (hasLongPattern_naming50000 sign) .and epoch
      mem rfl
    have tracks :
        Smart.tracks? (unlimited .and [naming50000 sign]) plan store.library epoch = none := by
      rw [Smart.tracks?, Query.run?]
      split
      · rfl
      · exact congrArg (Option.map _) search
    rw [smartTracks, tracks]
    rfl

end Store

end MusicLibrary
