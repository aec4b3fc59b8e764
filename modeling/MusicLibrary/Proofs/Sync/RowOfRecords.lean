import MusicLibrary.Proofs.Sync.TrackRun

/-! A row that one owner has created and nobody else has written. Every column of it is a closed
form of what the column was in the records of the owner, from the one that created the row to the
one that was taken in last. -/

namespace MusicLibrary

namespace Store

/-- Along a run, nothing but the records of an owner writes the row of a track. -/
def Undisturbed (owner : Option Int64) (id : PersistentId) : Store → List Transaction → Prop
  | _, [] => True
  | store, t :: ts =>
    (t.recordFor owner id = none → (store.commit t).track? id = store.track? id) ∧
      Undisturbed owner id (store.commit t) ts

/-- The columns of a row are what the policies make of some records. -/
def IsRowOf (id : PersistentId) (records : List TrackRecord) (row : Track) : Prop :=
  ∀ column : Track.Column,
    column.policy.IsResult column.type (Track.told id records column) (row.get column)

/-- The counters of the records, and what they add up to, are within a word. -/
def CountersFit (id : PersistentId) (records : List TrackRecord) : Prop :=
  ∀ column : Track.Column, column.policy = .accumulate →
    Countable ((Track.told id records column).map column.type.count)

theorem CountersFit.of_append {id : PersistentId} {records more : List TrackRecord}
    (h : CountersFit id (records ++ more)) : CountersFit id records := by
  intro column counter
  have whole := h column counter
  rw [Track.told_append, List.map_append] at whole
  exact whole.of_append

section

variable {id : PersistentId} {records : List TrackRecord} {stored next : Track}
  {last record : TrackRecord}

theorem getLast?_told (id : PersistentId) (final : records.getLast? = some last)
    (column : Track.Column) :
    (Track.told id records column).getLast? = some ((Track.ofRecord id last).get column) := by
  rw [Track.told, List.getLast?_map, final, Option.map_some]

theorem IsRowOf.countersCanFollow (h : IsRowOf id records stored)
    (final : records.getLast? = some last) (fit : CountersFit id (records ++ [record])) :
    stored.CountersCanFollow (.ofRecord id last) (.ofRecord id record) := by
  intro column counter
  have result := h column
  rw [counter] at result
  have countable := fit column counter
  rw [Track.told_append] at countable
  exact result.canFollow (getLast?_told id final column) _ countable

theorem IsRowOf.step (h : IsRowOf id records stored) (final : records.getLast? = some last)
    (step : ∀ column, column ≠ .dateModified → stored.mergeColumn? (.ofRecord id last)
      (.ofRecord id record) column = some (next.get column)) :
    IsRowOf id (records ++ [record]) next := by
  intro column
  by_cases stamp : column = .dateModified
  · subst stamp
    trivial
  · rw [Track.told_append]
    exact (h column).merge (getLast?_told id final column) (step column stamp)

/-- A record that says the same again leaves the row as it is. -/
theorem IsRowOf.repeated (h : IsRowOf id records stored) (final : records.getLast? = some last)
    (same : Track.ofRecord id last = .ofRecord id record)
    (fits : stored.CountersCanFollow (.ofRecord id last) (.ofRecord id record)) :
    IsRowOf id (records ++ [record]) stored := by
  intro column
  obtain ⟨result, merged⟩ :=
    Option.isSome_iff_exists.1 (MergePolicy.isSome_merge?_iff.2 (fits column))
  have told := getLast?_told id final column
  have row := (h column).merge told merged
  rw [← same] at merged
  rw [(h column).merge_repeated told merged] at row
  rw [Track.told_append]
  exact row

end

/-- The row of a track follows some records of an owner: it is the row of them all, and the last one
is the baseline. -/
structure Follows (store : Store) (owner : Option Int64) (id : PersistentId)
    (records : List TrackRecord) : Prop where
  row : ∃ stored, store.track? id = some stored ∧ IsRowOf id records stored
  baseline : ∃ last, records.getLast? = some last ∧
    store.baseline? owner id = some (.ofRecord id last)

variable {store : Store} {owner : Option Int64} {id : PersistentId} {t : Transaction}
  {records : List TrackRecord} {record : TrackRecord}

theorem Follows.apart (h : store.Follows owner id records) (foreign : t.recordFor owner id = none)
    (kept : (store.commit t).track? id = store.track? id) :
    (store.commit t).Follows owner id records := by
  obtain ⟨⟨stored, row, told⟩, last, final, base⟩ := h
  have found := kept.trans row
  exact ⟨⟨stored, found, told⟩, last, final, (baseline?_commit foreign found).trans base⟩

theorem Follows.extend (h : store.Follows owner id records)
    (taken : t.recordFor owner id = some record) (fit : CountersFit id (records ++ [record])) :
    (store.commit t).Follows owner id (records ++ [record]) := by
  obtain ⟨⟨stored, row, told⟩, last, final, base⟩ := h
  have fits := told.countersCanFollow final fit
  obtain ⟨next, found, advanced, step⟩ := track?_commit taken row base fits
  refine ⟨⟨next, found, ?_⟩, record, List.getLast?_concat, advanced⟩
  rcases step with columns | ⟨rfl, same⟩
  · exact told.step final columns
  · exact told.repeated final same fits

/-- What follows some records follows the records of a run, too. -/
theorem Follows.run {ts : List Transaction} (h : store.Follows owner id records)
    (undisturbed : Undisturbed owner id store ts)
    (fit : CountersFit id (records ++ ts.filterMap (·.recordFor owner id))) :
    (store.run ts).Follows owner id (records ++ ts.filterMap (·.recordFor owner id)) := by
  induction ts generalizing store records with
  | nil =>
    rw [List.filterMap_nil, List.append_nil]
    exact h
  | cons t ts ih =>
    obtain ⟨first, later⟩ := undisturbed
    rw [run_cons]
    cases taken : t.recordFor owner id with
    | none =>
      rw [List.filterMap_cons_none taken] at fit ⊢
      exact ih (h.apart taken (first taken)) later fit
    | some record =>
      have split : records ++ record :: ts.filterMap (·.recordFor owner id) =
          (records ++ [record]) ++ ts.filterMap (·.recordFor owner id) := by
        rw [List.append_assoc, List.singleton_append]
      rw [List.filterMap_cons_some taken, split] at fit ⊢
      exact ih (h.extend taken fit.of_append) later fit

end Store

namespace Sync

/-- A record that creates a row is followed by it. -/
theorem follows_of_created {options : Options} {store next : Store} {id : PersistentId}
    {record : TrackRecord} (name : record.persistentId = some id)
    (created : syncTrack options store record = .ok (next, .created)) :
    next.Follows options.owner id [record] := by
  cases trackStep_of_syncTrack created with
  | @created named given fresh =>
    have same : named = id := Option.some.inj (given.symm.trans name)
    subst same
    have row : (createTrack options store named record).1.track? named =
        some (Track.ofRecord named record).asStored := store.track?_writeTrack rfl
    have seen : (createTrack options store named record).1.snapshot? .track options.owner
        named.hex = some record.toJson.compact := by
      rw [createTrack, Store.snapshot?_record]
      exact Store.snapshot?_putSnapshot_self ..
    refine ⟨⟨_, row, fun column => ?_⟩, record, rfl, Store.baseline?_of_snapshot name seen⟩
    rw [Track.get_asStored]
    exact MergePolicy.isResult_singleton _ _ _

/-- A row that an owner's record creates and, from then on, only the owner's records write is told
by these records, column by column. -/
theorem row_of_records {options : Options} {store next : Store} {id : PersistentId}
    {first : TrackRecord} (name : first.persistentId = some id)
    (created : syncTrack options store first = .ok (next, .created)) {ts : List Transaction}
    (undisturbed : next.Undisturbed options.owner id ts)
    (fit : Store.CountersFit id (first :: ts.filterMap (·.recordFor options.owner id))) :
    ∃ row, (next.run ts).track? id = some row ∧
      ∀ column : Track.Column, column.policy.IsResult column.type
        (Track.told id (first :: ts.filterMap (·.recordFor options.owner id)) column)
        (row.get column) := by
  have start := follows_of_created name created
  exact (start.run undisturbed fit).row

def weekly : Options := { owner := some 1, actor := "cron", now := ⟨99⟩ }

/-- A track in a library file, week by week. -/
def blue (name : Option String) (rating playCount : Option Int64) (added : Int64) : TrackRecord :=
  { persistentId := some ⟨1⟩, location := some "file:///blue", name, rating, playCount,
    dateAdded := some ⟨added⟩ }

/-- The count of plays is lost in one week and starts again; in another week the file is away. -/
def weeks : List Transaction :=
  [.sync weekly (.track (blue (some "Blues") (some 60) (some 5) 10)),
   .sync weekly (.track { blue none none (some 50) 5 with disabled := some true }),
   .sync weekly (.track (blue none none none 30)),
   .sync weekly (.track (blue none none (some 4) 30))]

theorem countersFit_weeks :
    Store.CountersFit ⟨1⟩ (blue (some "Blue") (some 80) (some 3) 20 ::
      weeks.filterMap (·.recordFor weekly.owner ⟨1⟩)) := by
  have plays : Countable [3, 5, 0, 4] :=
    ⟨by simp [FitsWord], fun first head => by cases head; decide⟩
  have skips : Countable [0, 0, 0, 0] :=
    ⟨by simp [FitsWord], fun first head => by cases head; decide⟩
  intro column counter
  cases column with
  | playCount => exact plays
  | skipCount => exact skips
  | _ => cases counter

theorem row_of_records_weeks :
    ∃ next, syncTrack weekly .empty (blue (some "Blue") (some 80) (some 3) 20) =
        .ok (next, .created) ∧ next.Undisturbed weekly.owner ⟨1⟩ weeks ∧
      Store.CountersFit ⟨1⟩ (blue (some "Blue") (some 80) (some 3) 20 ::
        weeks.filterMap (·.recordFor weekly.owner ⟨1⟩)) ∧
      ∃ row, (next.run weeks).track? ⟨1⟩ = some row ∧
        row.name = some "Blues" ∧ row.rating = none ∧ row.dateAdded = some ⟨10⟩ ∧
        FieldType.count .integer row.playCount = 3 + (2 + 0 + 4) := by
  have created : syncTrack weekly .empty (blue (some "Blue") (some 80) (some 3) 20) =
      .ok (createTrack weekly .empty ⟨1⟩ (blue (some "Blue") (some 80) (some 3) 20)) := rfl
  have undisturbed : (createTrack weekly .empty ⟨1⟩
      (blue (some "Blue") (some 80) (some 3) 20)).1.Undisturbed weekly.owner ⟨1⟩ weeks := by
    have away (store : Store) : store.commit
        (.sync weekly (.track { blue none none (some 50) 5 with disabled := some true })) = store :=
      Store.commit_of_ok (Store.attempt_of_syncRecord
        (show syncRecord _ _ _ = .ok (store, .skipped .notImportable) from rfl))
    exact ⟨nofun, fun _ => congrArg (·.track? ⟨1⟩) (away _), nofun, nofun, trivial⟩
  obtain ⟨row, found, told⟩ := row_of_records rfl created undisturbed countersFit_weeks
  refine ⟨_, created, undisturbed, countersFit_weeks, row, found, ?_, ?_, ?_, ?_⟩
  · exact told .name
  · exact (Option.some.inj (told .rating)).symm
  · have least : MergePolicy.IsFirst (FieldType.before .time)
        [some ⟨20⟩, some ⟨10⟩, some ⟨30⟩, some ⟨30⟩] row.dateAdded := told .dateAdded
    cases added : row.dateAdded with
    | none =>
      rw [added] at least
      cases least _ List.mem_cons_self
    | some first =>
      rw [added] at least
      obtain ⟨mem, no⟩ := least
      simp only [List.mem_cons, Option.some.injEq, List.not_mem_nil, or_false] at mem
      rcases mem with rfl | rfl | rfl | rfl
      · cases no ⟨10⟩ (by simp)
      · rfl
      · cases no ⟨10⟩ (by simp)
      · cases no ⟨10⟩ (by simp)
  · exact MergePolicy.count_of_isResult (told .playCount) rfl

end Sync

end MusicLibrary
