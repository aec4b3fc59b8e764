import Mathlib.Data.Nat.Find
import MusicLibrary.Proofs.SortKey.Grammar

/-! Featured artists in sort keys. The separators are looked for one after the other, and the key is
cut at the first place of the first one that it has. So what comes before the cut may still have
another separator, and then the earliest one is not where the key is cut. -/

namespace MusicLibrary.SortKey

open Text (isBlank trimChars)

variable {separator key : List Char} {d : Char} {place n : Nat}

/-- The separator stands at a place of the key. -/
def Stands (separator key : List Char) (place : Nat) : Prop := separator <+: key.drop place

/-- The separator stands at a place of the key, and at no place before it. -/
structure IsFirst (separator key : List Char) (place : Nat) : Prop where
  stands : Stands separator key place
  earliest : ∀ n < place, ¬ Stands separator key n

/-- Of the separators that the key has, the one that is looked for first is first at this place. -/
def IsCut (key : List Char) (place : Nat) : Prop :=
  ∃ skipped separator rest, separators = skipped ++ separator :: rest ∧
    IsFirst separator key place ∧ ∀ other ∈ skipped, ∀ n, ¬ Stands other key n

/-- A separator stands at this place, and none does before it. -/
structure IsEarliest (key : List Char) (place : Nat) : Prop where
  stands : ∃ separator ∈ separators, Stands separator key place
  earliest : ∀ n < place, ∀ separator ∈ separators, ¬ Stands separator key n

instance : Decidable (Stands separator key place) := inferInstanceAs (Decidable (_ <+: _))

theorem infix_iff_stands : separator <:+: key ↔ ∃ place, Stands separator key place := by
  constructor
  · rintro ⟨front, back, rfl⟩
    exact ⟨front.length, back, by simp⟩
  · rintro ⟨place, stands⟩
    exact stands.isInfix.trans (List.drop_suffix ..).isInfix

theorem exists_isFirst (stands : Stands separator key n) : ∃ place, IsFirst separator key place := by
  have some : ∃ n, Stands separator key n := ⟨n, stands⟩
  exact ⟨Nat.find some, Nat.find_spec some, fun m before => Nat.find_min some before⟩

theorem before?_of_isFirst (first : IsFirst separator key place) :
    before? separator key = some (key.take place) := by
  induction key generalizing place with
  | nil =>
    have empty : separator = [] := by simpa [Stands] using first.stands
    simp [before?, empty]
  | cons c rest ih =>
    by_cases here : separator.isPrefixOf (c :: rest) = true
    · have start : place = 0 := by
        by_contra later
        exact first.earliest 0 (by omega) (List.isPrefixOf_iff_prefix.1 here)
      simp [before?, here, start]
    · obtain ⟨n, rfl⟩ : ∃ n, place = n + 1 := by
        refine Nat.exists_eq_add_one_of_ne_zero fun start => here ?_
        subst start
        exact List.isPrefixOf_iff_prefix.2 first.stands
      have behind : IsFirst separator rest n :=
        ⟨first.stands, fun m before => first.earliest (m + 1) (by omega)⟩
      simp [before?, here, ih behind]

theorem before?_of_absent (absent : ∀ n, ¬ Stands separator key n) :
    before? separator key = none := by
  induction key with
  | nil =>
    have nonempty : separator ≠ [] := by simpa [Stands] using absent 0
    simp [before?, nonempty]
  | cons c rest ih =>
    have here : ¬ separator.isPrefixOf (c :: rest) = true :=
      fun h => absent 0 (List.isPrefixOf_iff_prefix.1 h)
    simp [before?, here, ih fun n => absent (n + 1)]

theorem dropFeatured_of_isCut (cut : IsCut key place) :
    dropFeatured key = trimChars (key.take place) := by
  obtain ⟨skipped, separator, rest, all, first, absent⟩ := cut
  have found : (separators.findSome? fun separator => before? separator key) =
      some (key.take place) :=
    List.findSome?_eq_some_iff.2 ⟨skipped, separator, rest, all, before?_of_isFirst first,
      fun other mem => before?_of_absent (absent other mem)⟩
  rw [dropFeatured, found, Option.getD_some]

/-- A key that has a separator is cut. -/
theorem exists_isCut (mem : separator ∈ separators) (stands : Stands separator key n) :
    ∃ place, IsCut key place := by
  suffices general : ∀ list : List (List Char), separator ∈ list → ∃ place skipped found rest,
      list = skipped ++ found :: rest ∧ IsFirst found key place ∧
        ∀ other ∈ skipped, ∀ n, ¬ Stands other key n from general separators mem
  intro list mem
  induction list with
  | nil => cases mem
  | cons next list ih =>
    by_cases has : ∃ n, Stands next key n
    · obtain ⟨n, here⟩ := has
      obtain ⟨place, first⟩ := exists_isFirst here
      exact ⟨place, [], next, list, rfl, first, nofun⟩
    · have later : separator ∈ list := by
        rcases List.mem_cons.1 mem with rfl | later
        · exact absurd ⟨n, stands⟩ has
        · exact later
      obtain ⟨place, skipped, found, rest, rfl, first, absent⟩ := ih later
      refine ⟨place, next :: skipped, found, rest, rfl, first, ?_⟩
      simpa using ⟨fun n here => has ⟨n, here⟩, absent⟩

theorem IsCut.exists_stands (cut : IsCut key place) :
    ∃ separator ∈ separators, Stands separator key place := by
  obtain ⟨skipped, separator, rest, all, first, -⟩ := cut
  exact ⟨separator, by simp [all], first.stands⟩

theorem exists_isEarliest (mem : separator ∈ separators) (stands : Stands separator key n) :
    ∃ place, IsEarliest key place := by
  have some : ∃ n, ∃ separator ∈ separators, Stands separator key n := ⟨n, separator, mem, stands⟩
  refine ⟨Nat.find some, Nat.find_spec some, ?_⟩
  intro m before other mem here
  exact Nat.find_min some before ⟨other, mem, here⟩

/-! A separator is a word between two spaces, so what stands behind its start and behind its end are
letters. -/

theorem separator_eq (mem : separator ∈ separators) : ∃ c word,
    separator = ' ' :: c :: (word ++ [' ']) := by
  have all : separators = [' ' :: 'f' :: ("eat".toList ++ [' ']),
    ' ' :: 'f' :: ("eaturing".toList ++ [' ']), ' ' :: 'w' :: ("ith".toList ++ [' '])] := by decide
  rw [all] at mem
  simp only [List.mem_cons, List.not_mem_nil, or_false] at mem
  rcases mem with rfl | rfl | rfl
  · exact ⟨_, _, rfl⟩
  · exact ⟨_, _, rfl⟩
  · exact ⟨_, _, rfl⟩

theorem Stands.getElem? (stands : Stands separator key place) {i : Nat}
    (inside : i < separator.length) : key[place + i]? = separator[i]? := by
  obtain ⟨back, all⟩ := stands
  rw [← List.getElem?_drop, ← all, List.getElem?_append_left inside]

theorem IsKey.letter_behind (isKey : IsKey key) {i : Nat} (space : key[i]? = some ' ')
    (next : key[i + 1]? = some d) : IsLetter d := by
  obtain ⟨lt, at'⟩ := List.getElem?_eq_some_iff.1 space
  obtain ⟨lt', next'⟩ := List.getElem?_eq_some_iff.1 next
  have all : key = key.take i ++ ' ' :: d :: key.drop (i + 2) := by
    rw [← at', ← next', List.getElem_cons_drop, List.getElem_cons_drop, List.take_append_drop]
  exact (all ▸ isKey.marked).behind_space

theorem Stands.space (stands : Stands separator key place) (mem : separator ∈ separators) :
    key[place]? = some ' ' := by
  obtain ⟨c, word, rfl⟩ := separator_eq mem
  simpa using stands.getElem? (i := 0) (by simp)

theorem Stands.letter (stands : Stands separator key place) (mem : separator ∈ separators)
    (isKey : IsKey key) : ∃ d, key[place + 1]? = some d ∧ IsLetter d := by
  have space := stands.space mem
  obtain ⟨c, word, rfl⟩ := separator_eq mem
  have next := stands.getElem? (i := 1) (by simp)
  exact ⟨c, by simpa using next, isKey.letter_behind space (by simpa using next)⟩

theorem Stands.lastSpace (stands : Stands separator key place) (mem : separator ∈ separators) :
    key[place + (separator.length - 1)]? = some ' ' := by
  obtain ⟨c, word, rfl⟩ := separator_eq mem
  rw [stands.getElem? (by simp)]
  simp

theorem IsLetter.ne_space (letter : IsLetter d) : d ≠ ' ' := ne_space_of_isKeyChar letter.isKeyChar

/-- What trimming leaves of the key up to some place reaches as far as the last letter there. -/
theorem IsKey.trim_take (isKey : IsKey key) (place : Nat) : ∃ n ≤ place,
    trimChars (key.take place) = key.take n ∧
      ∀ i d, i < place → key[i]? = some d → IsLetter d → i < n := by
  have first : ∀ c ∈ (key.take place).head?, isBlank c = false := by
    intro c head
    rw [List.head?_take] at head
    split at head
    · cases head
    · exact isKey.isBlank_first c head
  obtain ⟨back, all, blanks⟩ := Text.exists_trimChars_append first
  have start : trimChars (key.take place) <+: key :=
    List.IsPrefix.trans ⟨back, all.symm⟩ (List.take_prefix ..)
  refine ⟨(trimChars (key.take place)).length, ?_, List.prefix_iff_eq_take.1 start, ?_⟩
  · have := congrArg List.length all
    simp only [List.length_append, List.length_take] at this
    omega
  · intro i d before here letter
    by_contra behind
    have mem : d ∈ back := by
      rw [← List.getElem?_take_of_lt before, all, List.getElem?_append_right (by omega)] at here
      exact List.mem_of_getElem? here
    have blank := blanks d mem
    rw [isBlank_of_isKeyChar letter.isKeyChar] at blank
    cases blank

theorem IsKey.dropFeatured_of_absent (isKey : IsKey key)
    (absent : ∀ separator ∈ separators, ¬ separator <:+: key) : dropFeatured key = key := by
  have none : ∀ separator ∈ separators, before? separator key = none := fun separator mem =>
    before?_of_absent fun n stands => absent separator mem (infix_iff_stands.2 ⟨n, stands⟩)
  rw [dropFeatured, List.findSome?_eq_none_iff.2 none, Option.getD_none, isKey.trimChars_eq]

/-- Either the key is cut, or there is nothing to cut it at. -/
theorem isCut_or_absent (key : List Char) :
    (∃ place, IsCut key place) ∨ ∀ separator ∈ separators, ¬ separator <:+: key := by
  by_cases has : ∃ separator ∈ separators, separator <:+: key
  · obtain ⟨separator, mem, inside⟩ := has
    obtain ⟨n, stands⟩ := infix_iff_stands.1 inside
    exact .inl (exists_isCut mem stands)
  · exact .inr fun separator mem inside => has ⟨separator, mem, inside⟩

theorem IsKey.isKey_dropFeatured (isKey : IsKey key) : IsKey (dropFeatured key) := by
  rcases isCut_or_absent key with ⟨place, cut⟩ | absent
  · obtain ⟨separator, mem, stands⟩ := cut.exists_stands
    rw [dropFeatured_of_isCut cut]
    have whole : Marked (key.take place ++ key.drop place) := by
      rw [List.take_append_drop]
      exact isKey.marked
    refine isKey_trimChars (whole.before fun c head => ?_)
    rw [List.head?_drop, stands.space mem] at head
    cases head
    rfl
  · rw [isKey.dropFeatured_of_absent absent]
    exact isKey

theorem IsKey.start_dropFeatured (isKey : IsKey key) : dropFeatured key <+: key := by
  rcases isCut_or_absent key with ⟨place, cut⟩ | absent
  · obtain ⟨n, -, trimmed, -⟩ := isKey.trim_take place
    rw [dropFeatured_of_isCut cut, trimmed]
    exact List.take_prefix ..
  · exact ⟨[], by rw [isKey.dropFeatured_of_absent absent, List.append_nil]⟩

/-- What is left of a key has just the separators that end before the cut. -/
theorem IsCut.infix_iff (cut : IsCut key place) (isKey : IsKey key) (mem : separator ∈ separators) :
    separator <:+: dropFeatured key ↔
      ∃ n, Stands separator key n ∧ n + separator.length ≤ place := by
  obtain ⟨m, le, trimmed, reach⟩ := isKey.trim_take place
  obtain ⟨found, at', here⟩ := cut.exists_stands
  have space := here.space at'
  have nonempty : 0 < separator.length := by
    obtain ⟨c, word, rfl⟩ := separator_eq mem
    simp
  rw [dropFeatured_of_isCut cut, trimmed, infix_iff_stands]
  simp only [Stands, List.drop_take, List.prefix_take_iff]
  constructor
  · rintro ⟨n, stands, short⟩
    exact ⟨n, stands, by omega⟩
  · rintro ⟨n, stands, ends⟩
    -- Behind the last space of the separator comes a letter, so trimming does not reach it.
    obtain ⟨lt, -⟩ := List.getElem?_eq_some_iff.1 space
    have lastSpace := Stands.lastSpace stands mem
    have next := List.getElem?_eq_getElem (l := key) (i := n + (separator.length - 1) + 1) (by omega)
    have letter := isKey.letter_behind lastSpace next
    have apart : n + (separator.length - 1) + 1 ≠ place := by
      rintro rfl
      rw [next] at space
      exact letter.ne_space (Option.some.inj space)
    have := reach _ _ (by omega) next letter
    exact ⟨n, stands, by omega⟩

/-- Cut anywhere but at its earliest separator, more of a key is left. -/
theorem IsCut.eq_trimChars_iff (cut : IsCut key place) (isKey : IsKey key)
    (earliest : IsEarliest key n) : dropFeatured key = trimChars (key.take n) ↔ place = n := by
  obtain ⟨m, le, trimmed, reach⟩ := isKey.trim_take place
  obtain ⟨k, short, other, -⟩ := isKey.trim_take n
  obtain ⟨separator, mem, stands⟩ := cut.exists_stands
  have space := stands.space mem
  constructor
  · intro same
    by_contra apart
    have before : n < place := by
      have : ¬ place < n := fun lt => earliest.earliest place lt separator mem stands
      omega
    obtain ⟨first, mem, here⟩ := earliest.stands
    obtain ⟨d, next, letter⟩ := here.letter mem isKey
    have ne : n + 1 ≠ place := by
      rintro rfl
      rw [next] at space
      exact letter.ne_space (Option.some.inj space)
    have inside := reach (n + 1) d (by omega) next letter
    have lengths := congrArg List.length same
    obtain ⟨lt, -⟩ := List.getElem?_eq_some_iff.1 space
    rw [dropFeatured_of_isCut cut, trimmed, other, List.length_take, List.length_take] at lengths
    omega
  · rintro rfl
    exact dropFeatured_of_isCut cut

theorem IsEarliest.unique (one : IsEarliest key n) (two : IsEarliest key place) : n = place := by
  obtain ⟨separator, mem, stands⟩ := one.stands
  obtain ⟨other, mem', stands'⟩ := two.stands
  have : ¬ n < place := fun lt => two.earliest n lt separator mem stands
  have : ¬ place < n := fun lt => one.earliest place lt other mem' stands'
  omega

theorem IsKey.absent_iff (isKey : IsKey key) :
    (∀ separator ∈ separators, ¬ separator <:+: dropFeatured key) ↔
      ∀ place, IsCut key place → ∀ separator ∈ separators, ∀ n, Stands separator key n →
        place < n + separator.length := by
  constructor
  · intro none place cut separator mem n stands
    by_contra ends
    exact none separator mem ((cut.infix_iff isKey mem).2 ⟨n, stands, by omega⟩)
  · intro late separator mem inside
    rcases isCut_or_absent key with ⟨place, cut⟩ | absent
    · obtain ⟨n, stands, ends⟩ := (cut.infix_iff isKey mem).1 inside
      have := late place cut separator mem n stands
      omega
    · rw [isKey.dropFeatured_of_absent absent] at inside
      exact absent separator mem inside

theorem IsKey.earliest_iff (isKey : IsKey key) :
    (∀ n, IsEarliest key n → dropFeatured key = trimChars (key.take n)) ↔
      ∀ place, IsCut key place → IsEarliest key place := by
  constructor
  · intro cuts place cut
    obtain ⟨separator, mem, stands⟩ := cut.exists_stands
    obtain ⟨n, earliest⟩ := exists_isEarliest mem stands
    rw [(cut.eq_trimChars_iff isKey earliest).1 (cuts n earliest)]
    exact earliest
  · intro cuts n earliest
    obtain ⟨separator, mem, stands⟩ := earliest.stands
    obtain ⟨place, cut⟩ := exists_isCut mem stands
    exact (cut.eq_trimChars_iff isKey earliest).2 ((cuts place cut).unique earliest)

theorem toList_ofText (s : String) : (ofText s).toList = ofPlain (plain s.toList) :=
  String.toList_ofList

theorem toList_ofArtist (s : String) : (ofArtist s).toList = dropFeatured (ofText s).toList := by
  rw [toList_ofText]
  exact String.toList_ofList

theorem isKey_ofText (s : String) : IsKey (ofText s).toList := by
  rw [toList_ofText]
  exact isKey_ofPlain _

theorem isKey_ofArtist (s : String) : IsKey (ofArtist s).toList := by
  rw [toList_ofArtist]
  exact (isKey_ofText s).isKey_dropFeatured

/-- Whatever a text becomes in lower case and without accents, its key follows the grammar; and the
key of an artist is a start of that key, with no space left at the end. -/
theorem keys_are_spelled :
    (∀ text, IsSpelled (ofPlain text) ∧ dropFeatured (ofPlain text) <+: ofPlain text ∧
      ¬ [' '] <:+ dropFeatured (ofPlain text)) ∧
    ∀ s, IsSpelled (ofText s).toList ∧ (ofArtist s).toList <+: (ofText s).toList ∧
      ¬ [' '] <:+ (ofArtist s).toList := by
  have each (key : List Char) (isKey : IsKey key) : IsSpelled key ∧ dropFeatured key <+: key ∧
      ¬ [' '] <:+ dropFeatured key :=
    ⟨isKey.isSpelled, isKey.start_dropFeatured, isKey.isKey_dropFeatured.isSpelled.last⟩
  refine ⟨fun text => each _ (isKey_ofPlain text), fun s => ?_⟩
  rw [toList_ofArtist]
  exact each _ (isKey_ofText s)

/-- The key of an artist is the key up to where it is cut, or the whole key if it is not. It has no
separator exactly if none ends before that place, and it is the key up to the earliest separator exactly
if that is the place. -/
theorem featured_dropped_iff (s : String) :
    let key := (ofText s).toList
    let artist := (ofArtist s).toList
    ((∀ separator ∈ separators, ¬ separator <:+: key) → artist = key) ∧
    (∀ place, IsCut key place → artist = trimChars (key.take place)) ∧
    ((∀ separator ∈ separators, ¬ separator <:+: artist) ↔
      ∀ place, IsCut key place → ∀ separator ∈ separators, ∀ n, Stands separator key n →
        place < n + separator.length) ∧
    ((∀ n, IsEarliest key n → artist = trimChars (key.take n)) ↔
      ∀ place, IsCut key place → IsEarliest key place) := by
  intro key artist
  have isKey : IsKey key := isKey_ofText s
  have artist_eq : artist = dropFeatured key := toList_ofArtist s
  rw [artist_eq]
  exact ⟨isKey.dropFeatured_of_absent, fun place => dropFeatured_of_isCut, isKey.absent_iff,
    isKey.earliest_iff⟩

/-- The guest is dropped, but the partner stays. -/
theorem featured_left_behind :
    (ofArtist "Simon with Garfunkel feat. Paul").toList = "simon with garfunkel".toList ∧
      " with ".toList ∈ separators ∧
      " with ".toList <:+: (ofArtist "Simon with Garfunkel feat. Paul").toList := by
  decide +kernel

end MusicLibrary.SortKey
