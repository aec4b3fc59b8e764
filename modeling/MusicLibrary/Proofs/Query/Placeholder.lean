import MusicLibrary.Proofs.Query.Thinning

/-! What the SQL of a query is made of. Its words come from the form of the rules alone, and each
value has a placeholder of its own: written there, one after the other, the values make the query
that the rules mean. -/

namespace MusicLibrary.Query

open Smart

/-! Fragments. -/

/-- A text with its placeholders replaced by values, one after the other. -/
def fill (write : Value → String) : List Char → List Value → List Char
  | [], _ => []
  | c :: rest, [] => c :: rest
  | c :: rest, value :: values =>
    if c = '?' then (write value).toList ++ fill write rest values
    else c :: fill write rest (value :: values)

theorem fill_append {write : Value → String} {front : List Char} (plain : '?' ∉ front)
    (back : List Char) (values : List Value) :
    fill write (front ++ back) values = front ++ fill write back values := by
  induction front with
  | nil => rfl
  | cons c front ih =>
    rw [List.mem_cons, not_or] at plain
    obtain ⟨other, plain⟩ := plain
    cases values with
    | nil =>
      rw [List.cons_append, fill, List.cons_append, ← ih plain]
      cases front ++ back <;> rfl
    | cons value values =>
      rw [List.cons_append, fill, if_neg (Ne.symm other), ih plain, List.cons_append]

namespace Fragment

/-- The SQL with each value written where its placeholder is. -/
def written (write : Value → String) (fragments : List Fragment) : String :=
  String.join (fragments.map fun
    | .words s => s
    | .bound value => write value)

/-- No words hold the sign of a placeholder. -/
def IsPlain (fragments : List Fragment) : Prop := ∀ s, .words s ∈ fragments → '?' ∉ s.toList

variable {write : Value → String} {a b : List Fragment}

@[simp] theorem written_nil : written write [] = "" := rfl

@[simp] theorem written_words (s : String) (rest : List Fragment) :
    written write (.words s :: rest) = s ++ written write rest := by
  simp [written, String.join_cons]

@[simp] theorem written_bound (value : Value) (rest : List Fragment) :
    written write (.bound value :: rest) = write value ++ written write rest := by
  simp [written, String.join_cons]

@[simp] theorem written_append (a b : List Fragment) :
    written write (a ++ b) = written write a ++ written write b := by
  simp [written, String.join_append]

theorem sql_eq_written (fragments : List Fragment) :
    sql fragments = written (fun _ => "?") fragments := by
  rw [sql, written]
  congr 2

@[simp] theorem isPlain_nil : IsPlain [] := by simp [IsPlain]

@[simp] theorem isPlain_words {s : String} {rest : List Fragment} :
    IsPlain (.words s :: rest) ↔ '?' ∉ s.toList ∧ IsPlain rest := by
  simp [IsPlain]

@[simp] theorem isPlain_bound {value : Value} {rest : List Fragment} :
    IsPlain (.bound value :: rest) ↔ IsPlain rest := by
  simp [IsPlain]

@[simp] theorem isPlain_append : IsPlain (a ++ b) ↔ IsPlain a ∧ IsPlain b := by
  simp only [IsPlain, List.mem_append]
  exact ⟨fun h => ⟨fun s mem => h s (.inl mem), fun s mem => h s (.inr mem)⟩,
    fun h s mem => mem.elim (h.1 s) (h.2 s)⟩

/-- The values go where they were meant. -/
theorem fill_sql (plain : IsPlain a) :
    fill write (sql a).toList (values a) = (written write a).toList := by
  rw [sql_eq_written]
  induction a with
  | nil => rfl
  | cons fragment rest ih =>
    cases fragment with
    | words s =>
      obtain ⟨own, plain⟩ := isPlain_words.mp plain
      rw [written_words, written_words, String.toList_append, String.toList_append, ← ih plain]
      exact fill_append own _ _
    | bound value =>
      rw [written_bound, written_bound, String.toList_append, String.toList_append,
        ← ih (isPlain_bound.mp plain)]
      rfl

theorem count_sql (plain : IsPlain a) : (sql a).toList.count '?' = (values a).length := by
  rw [sql_eq_written]
  induction a with
  | nil => rfl
  | cons fragment rest ih =>
    cases fragment with
    | words s =>
      obtain ⟨own, plain⟩ := isPlain_words.mp plain
      rw [written_words, String.toList_append, List.count_append, List.count_eq_zero.mpr own,
        ih plain, Nat.zero_add]
      rfl
    | bound value =>
      rw [written_bound, String.toList_append, List.count_append, ih (isPlain_bound.mp plain)]
      exact Nat.add_comm 1 _

end Fragment

/-! Words. -/

theorem plain_append {a b : String} :
    '?' ∉ (a ++ b).toList ↔ '?' ∉ a.toList ∧ '?' ∉ b.toList := by
  rw [String.toList_append, List.mem_append, not_or]

theorem plain_ofDigits {n : Nat} : '?' ∉ (toString n).toList := by
  intro mem
  rw [Nat.toString_eq_repr, Nat.repr_eq_ofList_toDigits, String.toList_ofList] at mem
  exact absurd (Nat.isDigit_of_mem_toDigits (by decide) (by decide) mem) (by decide)

theorem plain_ofInt (n : Int) : '?' ∉ (toString n).toList := by
  cases n with
  | ofNat n => exact plain_ofDigits
  | negSucc n => exact plain_append.mpr ⟨by decide, plain_ofDigits⟩

theorem plain_letters (n : Nat) : '?' ∉ letters n := by
  induction n using letters.induct with
  | case1 => rw [letters, if_pos rfl]; exact List.not_mem_nil
  | case2 n positive ih =>
    rw [letters, if_neg positive, List.mem_append, not_or, List.mem_singleton]
    refine ⟨ih, ?_⟩
    have less : (n - 1) % 26 < 26 := Nat.mod_lt _ (by decide)
    -- Small letters come after the question mark.
    generalize (n - 1) % 26 = k at less
    revert k
    decide

@[simp] theorem plain_joinAlias (join : Nat) : '?' ∉ (joinAlias join).toList := by
  refine plain_append.mpr ⟨by decide, ?_⟩
  rw [String.toList_ofList]
  exact plain_letters _

@[simp] theorem plain_columnName (column : Track.Column) : '?' ∉ (columnName column).toList := by
  refine plain_append.mpr ⟨by decide, ?_⟩
  cases column <;> decide

@[simp] theorem plain_nullTest (negated : Bool) : '?' ∉ (nullTest negated).toList := by
  revert negated
  decide

@[simp] theorem plain_symbol (c : Comparison) : '?' ∉ c.symbol.toList := by
  cases c <;> decide

@[simp] theorem plain_word (c : Conjunction) : '?' ∉ c.word.toList := by
  cases c <;> decide

theorem plain_order (order : Order) : '?' ∉ order.sql.toList := by
  cases order with
  | column c descending => cases descending <;> simp [Order.sql]
  | keyRemainder modulus => exact plain_append.mpr ⟨by decide, plain_ofInt _⟩
  | key => decide

namespace Predicate

mutual

/-- A condition with its values written out: how it reads, whatever its fragments are. -/
def written (write : Value → String) : Predicate → String
  | .never => "0 = 1"
  | .always => "1 = 1"
  | .isNull column negated => columnName column ++ nullTest negated
  | .compare column comparison value =>
    columnName column ++ " " ++ comparison.symbol ++ " " ++ write value
  | .like column pattern negated =>
    columnName column ++ (if negated then " NOT LIKE " else " LIKE ") ++ write (.text pattern)
  | .sharesFlag kind negated =>
    "(" ++ columnName .mediaKind ++ " & " ++ write (Value.ofField .mediaKind kind) ++
      if negated then ") = 0" else ") != 0"
  | .joined join found => joinAlias join ++ ".playlist_id" ++ nullTest found
  | .group conjunction parts =>
    "(" ++ (" " ++ conjunction.word ++ " ").intercalate (writtenParts write parts) ++ ")"
termination_by structural p => p

def writtenParts (write : Value → String) : List Predicate → List String
  | [] => []
  | p :: rest => p.written write :: writtenParts write rest
termination_by structural parts => parts

end

mutual

theorem isPlain_fragments : ∀ p : Predicate, Fragment.IsPlain p.fragments
  | .never => by simp [fragments]
  | .always => by simp [fragments]
  | .isNull .. => by simp [fragments]
  | .compare .. => by simp [fragments]
  | .like _ _ negated => by cases negated <;> simp [fragments]
  | .sharesFlag _ negated => by cases negated <;> simp [fragments]
  | .joined .. => by simp [fragments]
  | .group conjunction [] => by simp [fragments, joinFragments]
  | .group conjunction (p :: rest) => by
    simp [fragments, joinFragments, isPlain_fragments p,
      isPlain_furtherFragments (" " ++ conjunction.word ++ " ") (by simp) rest]
termination_by structural p => p

theorem isPlain_furtherFragments (separator : String) (plain : '?' ∉ separator.toList) :
    ∀ parts : List Predicate, Fragment.IsPlain (furtherFragments separator parts)
  | [] => by simp [furtherFragments]
  | p :: rest => by
    simp [furtherFragments, plain, isPlain_fragments p,
      isPlain_furtherFragments separator plain rest]
termination_by structural parts => parts

end

mutual

theorem written_fragments (write : Value → String) :
    ∀ p : Predicate, Fragment.written write p.fragments = p.written write
  | .never => by simp [fragments, written]
  | .always => by simp [fragments, written]
  | .isNull .. => by simp [fragments, written]
  | .compare .. => by simp [fragments, written]
  | .like .. => by simp [fragments, written]
  | .sharesFlag .. => by simp [fragments, written, String.append_assoc]
  | .joined .. => by simp [fragments, written]
  | .group _ [] => by simp [fragments, joinFragments, written, writtenParts]
  | .group conjunction (p :: rest) => by
    rw [written, writtenParts, ← written_furtherFragments write _ (p.written write) rest]
    simp [fragments, joinFragments, written_fragments write p, String.append_assoc]
termination_by structural p => p

theorem written_furtherFragments (write : Value → String) (separator first : String) :
    ∀ parts : List Predicate, first ++ Fragment.written write (furtherFragments separator parts) =
      separator.intercalate (first :: writtenParts write parts)
  | [] => by simp [furtherFragments, writtenParts]
  | p :: rest => by
    rw [furtherFragments, writtenParts, String.intercalate_cons_cons,
      ← written_furtherFragments write separator (p.written write) rest]
    simp [written_fragments write p, String.append_assoc]
termination_by structural parts => parts

end

end Predicate

def writtenJoin (write : Value → String) (join : Nat) (playlist : Option Key) : String :=
  "LEFT OUTER JOIN playlist_track " ++ joinAlias join ++
    " ON track.id = " ++ joinAlias join ++ ".track_id" ++
    (playlist.map fun id => " AND " ++ joinAlias join ++ ".playlist_id = " ++
      write (.integer id)).getD ""

def opening (distinct : Bool) : String :=
  if distinct then "SELECT DISTINCT track.* FROM track" else "SELECT track.* FROM track"

/-- A query with its values written out. -/
def written (write : Value → String) (query : Query) : String :=
  opening query.distinct ++
    String.join (query.joins.mapIdx fun join playlist =>
      " " ++ writtenJoin write join playlist) ++
    " WHERE track.location IS NOT NULL AND " ++ query.condition.written write ++
    (query.order.map fun order => " ORDER BY " ++ order.sql).getD "" ++
    (query.limit.map fun limit => " LIMIT " ++ toString limit.toNat).getD ""

theorem isPlain_joinFragments (join : Nat) (playlist : Option Key) :
    Fragment.IsPlain (joinFragments join playlist) := by
  cases playlist <;> simp [joinFragments]

theorem isPlain_joinsFragments (first : Nat) (joins : List (Option Key)) :
    Fragment.IsPlain (joinsFragments first joins) := by
  induction joins generalizing first with
  | nil => simp [joinsFragments]
  | cons playlist rest ih => simp [joinsFragments, isPlain_joinFragments, ih]

theorem plain_clause {clause : α → String} (plain : ∀ a, '?' ∉ (clause a).toList)
    (given : Option α) : '?' ∉ ((given.map clause).getD "").toList := by
  cases given with
  | none => exact List.not_mem_nil
  | some a => exact plain a

theorem isPlain_fragments (query : Query) : Fragment.IsPlain query.fragments := by
  have order : ∀ order : Order, '?' ∉ (" ORDER BY " ++ order.sql).toList :=
    fun order => plain_append.mpr ⟨by decide, plain_order order⟩
  have limit : ∀ limit : UInt64, '?' ∉ (" LIMIT " ++ toString limit.toNat).toList :=
    fun _ => plain_append.mpr ⟨by decide, plain_ofDigits⟩
  simp only [fragments, Fragment.isPlain_append, Fragment.isPlain_words, isPlain_joinsFragments,
    query.condition.isPlain_fragments, Fragment.isPlain_nil]
  exact ⟨⟨⟨by split <;> decide, trivial⟩, by decide, trivial⟩,
    plain_clause order _, plain_clause limit _, trivial⟩

theorem written_joinFragments (write : Value → String) (join : Nat) (playlist : Option Key) :
    Fragment.written write (joinFragments join playlist) = writtenJoin write join playlist := by
  unfold joinFragments writtenJoin
  extract_lets name
  cases playlist with
  | none =>
    simp only [Fragment.written_words, Fragment.written_nil, Option.map_none, Option.getD_none,
      name]
  | some id =>
    simp only [Fragment.written_words, Fragment.written_bound, Fragment.written_nil,
      Option.map_some, Option.getD_some, name, String.append_assoc, String.append_empty]

theorem written_joinsFragments (write : Value → String) (first : Nat)
    (joins : List (Option Key)) :
    Fragment.written write (joinsFragments first joins) =
      String.join (joins.mapIdx fun i playlist =>
        " " ++ writtenJoin write (first + i) playlist) := by
  induction joins generalizing first with
  | nil => rfl
  | cons playlist rest ih =>
    rw [joinsFragments, List.mapIdx_cons, String.join_cons, ← written_joinFragments]
    simp [ih, String.append_assoc, Nat.add_assoc, Nat.add_comm 1]

theorem written_fragments (write : Value → String) (query : Query) :
    Fragment.written write query.fragments = query.written write := by
  simp [fragments, written, opening, written_joinsFragments, query.condition.written_fragments,
    String.append_assoc]

theorem values_joinsFragments (first : Nat) (joins : List (Option Key)) :
    Fragment.values (joinsFragments first joins) = joins.filterMap (·.map .integer) := by
  induction joins generalizing first with
  | nil => rfl
  | cons playlist rest ih =>
    cases playlist with
    | none => exact ih _
    | some id => exact congrArg _ (ih _)

end MusicLibrary.Query
