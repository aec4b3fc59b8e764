import Mathlib.Algebra.Ring.Nat
import MusicLibrary.Proofs.Sync.TrackRun

/-! Counters of a track. They go up both in the library of an owner and here; each gain of the
library is added once, and nothing that was counted here is lost or counted again. -/

namespace MusicLibrary

namespace Store

/-- The other counters of a track can follow a record of an owner. -/
def OthersCanFollow (store : Store) (owner : Option Int64) (id : PersistentId)
    (column : Track.Column) (record : TrackRecord) : Prop :=
  ∀ stored old, store.track? id = some stored → store.baseline? owner id = some old →
    ∀ other : Track.Column, other ≠ column → other.policy = .accumulate →
      other.type.CanFollow (stored.get other) (old.get other)
        ((Track.ofRecord id record).get other)

/-- A run that counts a column of a track: the counts that the records of an owner tell, and what
the saved rows add. Whatever else takes place leaves the row as it is. A record that takes another
counter out of its range is not taken in, so there is none. -/
inductive Counts (owner : Option Int64) (id : PersistentId) (column : Track.Column) :
    Store → List Transaction → List Int → List Nat → Prop
  | done {store} : Counts owner id column store [] [] []
  | told {store t ts record counts gains} (taken : t.recordFor owner id = some record)
    (others : store.OthersCanFollow owner id column record)
    (later : Counts owner id column (store.commit t) ts counts gains) :
    Counts owner id column store (t :: ts)
      (column.type.count ((Track.ofRecord id record).get column) :: counts) gains
  | saved {store track actor stored ts counts gains} {gain : Nat}
    (row : store.track? id = some stored) (same : track.id.key = id.key)
    (adds : column.type.count (track.get column) = column.type.count (stored.get column) + gain)
    (later : Counts owner id column (store.commit (.edit (.saveTrack track actor))) ts counts
      gains) :
    Counts owner id column store (.edit (.saveTrack track actor) :: ts) counts (gain :: gains)
  | apart {store t ts counts gains} (foreign : t.recordFor owner id = none)
    (kept : (store.commit t).track? id = store.track? id)
    (later : Counts owner id column (store.commit t) ts counts gains) :
    Counts owner id column store (t :: ts) counts gains

variable {owner : Option Int64} {id : PersistentId} {column : Track.Column}

/-- A record that is taken in adds what its library has gained since the one before. -/
theorem count_commit {store : Store} {t : Transaction} {record : TrackRecord} {stored old : Track}
    (counter : column.policy = .accumulate) (taken : t.recordFor owner id = some record)
    (others : store.OthersCanFollow owner id column record)
    (row : store.track? id = some stored) (base : store.baseline? owner id = some old)
    (fits : column.type.CanFollow (stored.get column) (old.get column)
      ((Track.ofRecord id record).get column)) :
    ∃ next, (store.commit t).track? id = some next ∧
      (store.commit t).baseline? owner id = some (.ofRecord id record) ∧
      column.type.count (next.get column) = column.type.count (stored.get column) +
        max 0 (column.type.count ((Track.ofRecord id record).get column) -
          column.type.count (old.get column)) := by
  have all : stored.CountersCanFollow old (.ofRecord id record) := by
    intro other policy
    by_cases own : other = column
    · rw [own]
      exact fits
    · exact others stored old row base other own policy
  obtain ⟨next, found, advanced, step⟩ := track?_commit taken row base all
  refine ⟨next, found, advanced, ?_⟩
  rcases step with columns | ⟨rfl, rfl⟩
  · have stamp : column ≠ .dateModified := by
      rintro rfl
      cases counter
    have merged := columns column stamp
    rw [Track.mergeColumn?, counter] at merged
    exact (MergePolicy.accumulated?_eq_some merged).2.count
  · omega

theorem Counts.count_run {store : Store} {ts : List Transaction} {counts : List Int}
    {gains : List Nat} (counter : column.policy = .accumulate)
    (run : Counts owner id column store ts counts gains) {stored old : Track}
    (row : store.track? id = some stored) (base : store.baseline? owner id = some old)
    (fit : (column.type.count (old.get column) :: counts).IsChain fun a b => FitsWord (b - a))
    (room : column.type.count (stored.get column) +
      growth (column.type.count (old.get column) :: counts) + gains.sum < 2 ^ 63) :
    ∃ final, (store.run ts).track? id = some final ∧
      column.type.count (final.get column) = column.type.count (stored.get column) +
        growth (column.type.count (old.get column) :: counts) + gains.sum := by
  induction run generalizing stored old with
  | done => exact ⟨stored, row, by simp [growth]⟩
  | @told store t ts record counts gains taken others later ih =>
    have rest := growth_nonneg (column.type.count ((Track.ofRecord id record).get column) :: counts)
    rw [List.isChain_cons_cons] at fit
    rw [growth] at room ⊢
    obtain ⟨next, found, advanced, count⟩ :=
      count_commit counter taken others row base ⟨fit.1, by omega⟩
    obtain ⟨final, last, total⟩ := ih found advanced fit.2 (by omega)
    exact ⟨final, last, by omega⟩
  | @saved store track actor current ts counts gains gain there same adds later ih =>
    have unchanged : current = stored := Option.some.inj (there.symm.trans row)
    subst unchanged
    have found : (store.commit (.edit (.saveTrack track actor))).track? id =
        some track.asStored := store.track?_writeTrack same
    have advanced := (baseline?_commit rfl found).trans base
    rw [List.sum_cons] at room ⊢
    rw [← Track.get_asStored] at adds
    obtain ⟨final, last, total⟩ := ih found advanced fit (by omega)
    exact ⟨final, last, by omega⟩
  | @apart store t ts counts gains foreign kept later ih =>
    have found := kept.trans row
    exact ih found ((baseline?_commit foreign found).trans base) fit room

end Store

namespace Sync

/-- Plays and skips are never counted twice: a counter ends where it started, with each gain of the
owner's library and each gain here added once. -/
theorem counter_of_run {owner : Option Int64} {id : PersistentId} {column : Track.Column}
    (counter : column = .playCount ∨ column = .skipCount) {store : Store} {stored old : Track}
    (row : store.track? id = some stored) (base : store.baseline? owner id = some old)
    {ts : List Transaction} {counts : List Int} {gains : List Nat}
    (run : store.Counts owner id column ts counts gains)
    (fit : (column.type.count (old.get column) :: counts).IsChain fun a b => FitsWord (b - a))
    (room : column.type.count (stored.get column) +
      growth (column.type.count (old.get column) :: counts) + gains.sum < 2 ^ 63) :
    ∃ final, (store.run ts).track? id = some final ∧
      column.type.count (final.get column) = column.type.count (stored.get column) +
        growth (column.type.count (old.get column) :: counts) + gains.sum := by
  have policy : column.policy = .accumulate := by
    rcases counter with rfl | rfl
    · rfl
    · rfl
  exact run.count_run policy row base fit room

def nightly : Options := { owner := some 1, actor := "cron", now := ⟨99⟩ }

/-- A track that was played in the library so often. -/
def heard (playCount : Option Int64) : TrackRecord :=
  { persistentId := some ⟨1⟩, location := some "file:///blue", playCount }

/-- The row of the track with a count of plays. -/
def rowHeard (playCount : Int64) (modified : Option Timestamp) : Track :=
  { id := ⟨1⟩, location := some "file:///blue", mediaKind := some .music,
    playCount := some playCount, dateModified := modified }

/-- The library has counted three plays, and its count was taken in. -/
def heardThrice : Store := (createTrack nightly .empty ⟨1⟩ (heard (some 3))).1

/-- Four more plays in the library, two plays here before they are taken in and one after; then the
library loses its count and starts again. -/
def nights : List Transaction :=
  [.edit (.saveTrack (rowHeard 5 none) "user"), .sync nightly (.track (heard (some 7))),
   .edit (.saveTrack (rowHeard 10 none) "user"), .sync nightly (.track (heard none)),
   .sync nightly (.track (heard (some 4)))]

theorem track?_heardThrice : heardThrice.track? ⟨1⟩ = some (rowHeard 3 none) := by
  decide +kernel

theorem baseline?_heardThrice :
    heardThrice.baseline? nightly.owner ⟨1⟩ = some (rowHeard 3 none) := by
  decide +kernel

/-- Nobody counts the skips of this track. -/
theorem othersCanFollow_heard {store : Store} (count : Int64) (before playCount : Option Int64)
    (row : store.track? ⟨1⟩ = some (rowHeard count none))
    (base : store.baseline? nightly.owner ⟨1⟩ = some (.ofRecord ⟨1⟩ (heard before))) :
    store.OthersCanFollow nightly.owner ⟨1⟩ .playCount (heard playCount) := by
  intro stored old there known other apart counter
  cases there.symm.trans row
  cases known.symm.trans base
  cases other with
  | skipCount => exact show FieldType.CanFollow .integer none none none from ⟨by decide, by decide⟩
  | playCount => exact absurd rfl apart
  | _ => cases counter

theorem counts_nights :
    heardThrice.Counts nightly.owner ⟨1⟩ .playCount nights [7, 0, 4] [2, 1] := by
  have later : ((heardThrice.commit (.edit (.saveTrack (rowHeard 5 none) "user"))).commit
      (.sync nightly (.track (heard (some 7))))).track? ⟨1⟩ = some (rowHeard 9 (some ⟨99⟩)) := by
    decide +kernel
  apply Store.Counts.saved track?_heardThrice rfl (by decide)
  apply Store.Counts.told (show _ = some (heard (some 7)) from rfl)
    (othersCanFollow_heard 5 (some 3) (some 7) (by decide +kernel) (by decide +kernel))
  apply Store.Counts.saved later rfl (by decide)
  apply Store.Counts.told (show _ = some (heard none) from rfl)
    (othersCanFollow_heard 10 (some 7) none (by decide +kernel) (by decide +kernel))
  apply Store.Counts.told (show _ = some (heard (some 4)) from rfl)
    (othersCanFollow_heard 10 none (some 4) (by decide +kernel) (by decide +kernel))
  exact .done

theorem counter_of_run_nights :
    heardThrice.track? ⟨1⟩ = some (rowHeard 3 none) ∧
      heardThrice.baseline? nightly.owner ⟨1⟩ = some (rowHeard 3 none) ∧
      heardThrice.Counts nightly.owner ⟨1⟩ .playCount nights [7, 0, 4] [2, 1] ∧
      ∃ final, (heardThrice.run nights).track? ⟨1⟩ = some final ∧
        FieldType.count .integer final.playCount = 3 + (4 + 0 + 4) + (2 + 1) := by
  have fit : [3, 7, 0, 4].IsChain fun a b : Int => FitsWord (b - a) := by simp [FitsWord]
  exact ⟨track?_heardThrice, baseline?_heardThrice, counts_nights,
    counter_of_run (.inl rfl) track?_heardThrice baseline?_heardThrice counts_nights fit
      (by decide)⟩

end Sync

end MusicLibrary
