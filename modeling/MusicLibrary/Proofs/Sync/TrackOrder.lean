import Mathlib.Data.List.Basic
import MusicLibrary.Proofs.Sync.Alike

/-! Tracks may come in any order. Records that share nothing change places one by one, up to the
other order of the stream; and pruning does not tell the orders apart. -/

namespace MusicLibrary

/-- The key of a track by which its row is found. -/
def LibraryRecord.trackKey? : LibraryRecord → Option Key
  | .track record => record.persistentId.map PersistentId.key
  | .playlist _ => none

namespace Sync

open Store (SameTables)

variable {options : Options}

namespace Progress

variable {p q r : Progress} {x y : LibraryRecord}

/-- Independent records are taken in alike in either order. -/
theorem take_swap (apart : Independent options x y) (first : p.take options x = .ok q)
    (second : q.take options y = .ok r) :
    ∃ q' r', p.take options y = .ok q' ∧ q'.take options x = .ok r' ∧ r.Alike r' := by
  obtain ⟨store, outcome, placed, rfl⟩ := note_of_take first
  obtain ⟨store', outcome', placed', rfl⟩ := note_of_take second
  rw [store_note] at placed'
  obtain ⟨early, late, placedEarly, placedLate, same⟩ := placeRecord_swap apart placed placed'
  refine ⟨p.note y early outcome', (p.note y early outcome').note x late outcome,
    take_of_placeRecord placedEarly, take_of_placeRecord ?_, ?_, ?_, ?_⟩
  · rw [store_note]
    exact placedLate
  · rw [store_note, store_note]
    exact same
  · cases x <;> cases y <;> simp [note, EntityStats.record_comm]
  · intro kind key
    rw [mem_seen_note, mem_seen_note, mem_seen_note, mem_seen_note]
    exact or_left_comm

end Progress

/-! Records in another order. -/

/-- The same records, of which some that are independent have changed places. -/
inductive Reordered (options : Options) : List LibraryRecord → List LibraryRecord → Prop
  | refl (records) : Reordered options records records
  | cons {records records'} (record) (later : Reordered options records records') :
    Reordered options (record :: records) (record :: records')
  | swap {x y rest} (apart : Independent options x y) :
    Reordered options (x :: y :: rest) (y :: x :: rest)
  | trans {first second third} (h : Reordered options first second)
    (h' : Reordered options second third) : Reordered options first third

/-- A run comes to the same with its records reordered. -/
theorem Reordered.takeAll {records records' : List LibraryRecord}
    (h : Reordered options records records') {p last : Progress}
    (all : Progress.takeAll options p records = .ok last) :
    ∃ last', Progress.takeAll options p records' = .ok last' ∧ last.Alike last' := by
  induction h generalizing p last with
  | refl records => exact ⟨last, all, .refl last⟩
  | cons record later ih =>
    obtain ⟨next, step, rest⟩ := bind_eq_ok all
    obtain ⟨last', rest', like⟩ := ih rest
    exact ⟨last', (Progress.takeAll_cons step _).trans rest', like⟩
  | @swap x y rest apart =>
    obtain ⟨next, first, others⟩ := bind_eq_ok all
    obtain ⟨both, second, later⟩ := bind_eq_ok others
    obtain ⟨next', both', first', second', like⟩ := Progress.take_swap apart first second
    obtain ⟨last', later', like'⟩ := like.takeAll later
    refine ⟨last', ?_, like'⟩
    rw [Progress.takeAll_cons first', Progress.takeAll_cons second', later']
  | trans h h' ih ih' =>
    obtain ⟨middle, all', like⟩ := ih all
    obtain ⟨last', all'', like'⟩ := ih' all'
    exact ⟨last', all'', like.trans like'⟩

/-- A record moves behind others of which it is independent. -/
theorem reordered_middle {x : LibraryRecord} {front : List LibraryRecord}
    (apart : ∀ y ∈ front, Independent options x y) (back : List LibraryRecord) :
    Reordered options (x :: (front ++ back)) (front ++ x :: back) := by
  induction front with
  | nil => exact .refl _
  | cons y front ih =>
    have rest := ih fun z mem => apart z (List.mem_cons_of_mem y mem)
    exact .trans (.swap (apart y List.mem_cons_self)) (.cons y rest)

theorem independent_of_trackKey? {x : TrackRecord} {y : LibraryRecord}
    (keys : ∀ key, LibraryRecord.trackKey? (.track x) = some key → y.trackKey? ≠ some key) :
    Independent options (.track x) y := by
  cases y with
  | playlist y => exact independent_of_kind_ne nofun
  | track y =>
    refine independent_tracks fun a b name name' same => keys a.key ?_ ?_
    · rw [LibraryRecord.trackKey?, name, Option.map_some]
    · rw [LibraryRecord.trackKey?, name', Option.map_some, same]

/-- Where a record stands in another order of a stream, only independent ones are before it. -/
theorem exists_place {x : LibraryRecord} {rest records : List LibraryRecord}
    (same : (x :: rest).Perm records)
    (playlists : (x :: rest).filter (·.kind = .playlist) = records.filter (·.kind = .playlist))
    (distinct : ((x :: rest).filterMap LibraryRecord.trackKey?).Nodup) :
    ∃ front back, records = front ++ x :: back ∧ (∀ y ∈ front, Independent options x y) ∧
      rest.filter (·.kind = .playlist) = (front ++ back).filter (·.kind = .playlist) := by
  cases x with
  | track x =>
    obtain ⟨front, back, rfl⟩ := List.append_of_mem (same.subset List.mem_cons_self)
    refine ⟨front, back, rfl, fun y mem => ?_, ?_⟩
    · refine independent_of_trackKey? fun key own own' => ?_
      have nodup := (same.filterMap LibraryRecord.trackKey?).nodup_iff.1 distinct
      rw [List.filterMap_append, List.filterMap_cons_some own] at nodup
      have listed : key ∈ front.filterMap LibraryRecord.trackKey? :=
        List.mem_filterMap.2 ⟨y, mem, own'⟩
      exact (List.nodup_append.1 nodup).2.2 key listed key List.mem_cons_self rfl
    · simpa [LibraryRecord.kind] using playlists
  | playlist x =>
    rw [List.filter_cons_of_pos (by rfl), eq_comm, List.filter_eq_cons_iff] at playlists
    obtain ⟨front, back, rfl, tracks, -, later⟩ := playlists
    refine ⟨front, back, rfl, fun y mem => ?_, ?_⟩
    · apply independent_of_kind_ne
      intro kind
      exact tracks y mem (decide_eq_true kind.symm)
    · rw [List.filter_append, List.filter_eq_nil_iff.2 tracks, later, List.nil_append]

/-- Two orders of the same records, in which the playlists follow one another alike, differ in
independent records alone. -/
theorem reordered_of_perm {records records' : List LibraryRecord} (same : records.Perm records')
    (playlists : records.filter (·.kind = .playlist) = records'.filter (·.kind = .playlist))
    (distinct : (records.filterMap LibraryRecord.trackKey?).Nodup) :
    Reordered options records records' := by
  -- The first record moves to its place in the other order once the rest is in that order.
  induction records generalizing records' with
  | nil =>
    obtain rfl := List.nil_perm.1 same
    exact .refl []
  | cons x rest ih =>
    obtain ⟨front, back, rfl, apart, later⟩ := exists_place same playlists distinct
    have others : rest.Perm (front ++ back) :=
      List.Perm.cons_inv (same.trans List.perm_middle)
    have distinct' : (rest.filterMap LibraryRecord.trackKey?).Nodup :=
      distinct.sublist ((List.sublist_cons_self x rest).filterMap _)
    exact .trans (.cons x (ih others later distinct')) (reordered_middle apart back)

/-- Where a stream does not fail, its first records are all taken in. -/
theorem takeAll_of_not_failed {p : Progress} {records : List LibraryRecord}
    {items : List (Except ε LibraryRecord)}
    (ok : (resume options p (records.map .ok ++ items)).failure = none) :
    ∃ last, Progress.takeAll options p records = .ok last := by
  induction records generalizing p with
  | nil => exact ⟨p, rfl⟩
  | cons record rest ih =>
    rw [List.map_cons, List.cons_append, resume] at ok
    cases step : p.take options record with
    | error failure =>
      rw [step] at ok
      cases ok
    | ok next =>
      rw [step] at ok
      obtain ⟨last, all⟩ := ih ok
      exact ⟨last, (Progress.takeAll_cons step rest).trans all⟩

/-- Tracks may come in any order. Where two streams have the same records, the playlists follow one
another alike, and no two tracks share a key, then the second one ends as the first one does: it
does not fail either, it counts the same, and it leaves the same rows, lists and snapshots. Whatever
both streams have in common behind these records makes no difference. -/
theorem tracks_in_any_order (options : Options) (store : Store)
    {records records' : List LibraryRecord} (items : List (Except LineFault LibraryRecord))
    (same : records.Perm records')
    (playlists : records.filter (·.kind = .playlist) = records'.filter (·.kind = .playlist))
    (distinct : (records.filterMap LibraryRecord.trackKey?).Nodup)
    (ok : (stream options store (records.map .ok ++ items)).failure = none) :
    let first := stream options store (records.map .ok ++ items)
    let second := stream options store (records'.map .ok ++ items)
    second.failure = none ∧ second.progress.stats = first.progress.stats ∧
      SameTables first.progress.store second.progress.store := by
  intro first second
  obtain ⟨last, all⟩ := takeAll_of_not_failed ok
  obtain ⟨last', all', like⟩ := (reordered_of_perm same playlists distinct).takeAll all
  have first_eq : first = resume options last items := resume_append all items
  have second_eq : second = resume options last' items := resume_append all' items
  obtain ⟨failure, ends⟩ := like.resume items
  refine ⟨?_, ?_, ?_⟩
  · rw [second_eq, ← failure, ← first_eq]
    exact ok
  · rw [first_eq, second_eq]
    exact ends.stats.symm
  · rw [first_eq, second_eq]
    exact ends.store

/-- One track has got a new name, one is new and one is gone; the first two of them have changed
places, around a new list in which both are. -/
theorem tracks_in_any_order_swapped :
    let options : Options := { owner := some 1, actor := "cron", now := ⟨7⟩ }
    let track (id : PersistentId) (name : String) : LibraryRecord :=
      .track { persistentId := some id, location := some "file:///blue", name := some name }
    let list : LibraryRecord :=
      .playlist { persistentId := some ⟨32⟩, name := some "Mix", trackIds := [⟨3⟩, ⟨1⟩] }
    let store := Store.empty.callAll [.stream options [.ok (track ⟨1⟩ "a"), .ok (track ⟨2⟩ "b")]]
    let records := [track ⟨1⟩ "c", list, track ⟨3⟩ "d"]
    let records' := [track ⟨3⟩ "d", list, track ⟨1⟩ "c"]
    let items : List (Except LineFault LibraryRecord) := []
    let first := stream options store (records.map .ok ++ items)
    let second := stream options store (records'.map .ok ++ items)
    (first.failure = none ∧
      first.progress.stats.tracks = { created := 1, updated := 1, deleted := 1 }) ∧
    second.failure = none ∧ second.progress.stats = first.progress.stats ∧
      SameTables first.progress.store second.progress.store := by
  intro options track list store records records' items
  have told : (stream options store (records.map .ok ++ items)).failure = none ∧
      (stream options store (records.map .ok ++ items)).progress.stats.tracks =
        { created := 1, updated := 1, deleted := 1 } := by
    decide +kernel
  have same : records.Perm records' := by decide
  have playlists : records.filter (·.kind = .playlist) = records'.filter (·.kind = .playlist) := by
    decide
  have distinct : (records.filterMap LibraryRecord.trackKey?).Nodup := by decide
  exact ⟨told, tracks_in_any_order options store items same playlists distinct told.1⟩

end Sync

end MusicLibrary
