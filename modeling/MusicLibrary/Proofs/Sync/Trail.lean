import MusicLibrary.Proofs.Sync.Prefix
import MusicLibrary.Proofs.Sync.Pruning
import MusicLibrary.Proofs.Sync.SnapshotRecords

/-! The audit trail of a stream. Each record and each entry that is pruned adds the line of the
change that is told of it, and none if nothing is told; a playlist that moves to another folder adds
a line more, in front of the one for its change. -/

namespace MusicLibrary

/-- What a line of the trail is headed by: the entry that it is about, and what was done to it. -/
structure Heading where
  entity : String
  entityId : String
  kind : String
  deriving DecidableEq

def AuditEntry.heading (entry : AuditEntry) : Heading := ⟨entry.entity, entry.entityId, entry.kind⟩

def AuditKind.heading (kind : AuditKind) (id : PersistentId) : Heading :=
  ⟨kind.entity.label, id.hex, kind.label⟩

/-- The kind of line that a change is audited by. -/
def ChangeEvent.auditKind (event : ChangeEvent) : AuditKind :=
  match event.kind, event.change with
  | .track, .created => .trackCreated
  | .track, .changed => .trackUpdated
  | .track, .deleted => .trackDeleted
  | .playlist, .created => .playlistCreated
  | .playlist, .changed => .playlistUpdated
  | .playlist, .deleted => .playlistDeleted

def ChangeEvent.heading (event : ChangeEvent) : Heading := event.auditKind.heading event.id

theorem ChangeEvent.kind_heading_ne_moved (event : ChangeEvent) :
    event.heading.kind ≠ AuditKind.playlistMoved.label := by
  obtain ⟨kind, id, change⟩ := event
  cases kind <;> cases change <;> exact of_decide_eq_true rfl

namespace Store

/-- The trail goes on with lines of these headings. -/
def Appends (store next : Store) (headings : List Heading) : Prop :=
  ∃ lines, next.audit = store.audit ++ lines ∧ lines.map AuditEntry.heading = headings

variable {store next last : Store} {headings later : List Heading}

theorem Appends.of_eq (same : next.audit = store.audit) : Appends store next [] :=
  ⟨[], by rw [same, List.append_nil], rfl⟩

theorem Appends.refl (store : Store) : Appends store store [] := .of_eq rfl

theorem Appends.trans (first : Appends store next headings) (second : Appends next last later) :
    Appends store last (headings ++ later) := by
  obtain ⟨lines, audit, rfl⟩ := first
  obtain ⟨more, audit', rfl⟩ := second
  refine ⟨lines ++ more, ?_, List.map_append⟩
  rw [audit', audit, List.append_assoc]

theorem Appends.record (h : Appends store next headings) (actor operation : String)
    (kind : AuditKind) (id : PersistentId) (old new : Option String) :
    Appends store (next.record actor operation kind id.hex old new)
      (headings ++ [kind.heading id]) :=
  h.trans ⟨_, rfl, rfl⟩

end Store

namespace Sync

/-! Records. -/

/-- Whether a playlist was moved to another folder. -/
def Outcome.isMove : Outcome → Bool
  | .updated parentChanged _ => parentChanged
  | _ => false

/-- What a record is told by. -/
def eventsOf (entry : LibraryRecord × Outcome) : List ChangeEvent :=
  entry.2.events entry.1.kind entry.1.persistentId

/-- What a record is audited by: what is told, and in front of it the move, if it is one. -/
def headingsOf (entry : LibraryRecord × Outcome) : List Heading :=
  (eventsOf entry).flatMap fun event =>
    if entry.2.isMove then [AuditKind.playlistMoved.heading event.id, event.heading]
    else [event.heading]

section

variable {record : LibraryRecord} {outcome : Outcome}

theorem eventsOf_of_quiet (quiet : outcome.change? = none) : eventsOf (record, outcome) = [] := by
  simp only [eventsOf, Outcome.events, quiet]
  cases record.persistentId <;> rfl

theorem eventsOf_of_change {id : PersistentId} {change : ChangeKind}
    (name : record.persistentId = some id) (changed : outcome.change? = some change) :
    eventsOf (record, outcome) = [⟨record.kind, id, change⟩] := by
  simp only [eventsOf, Outcome.events, name, changed]

theorem headingsOf_of_quiet (quiet : outcome.change? = none) :
    headingsOf (record, outcome) = [] := by
  rw [headingsOf, eventsOf_of_quiet quiet, List.flatMap_nil]

theorem headingsOf_of_change {id : PersistentId} {change : ChangeKind}
    (name : record.persistentId = some id) (changed : outcome.change? = some change) :
    headingsOf (record, outcome) =
      if outcome.isMove then
        [AuditKind.playlistMoved.heading id, ChangeEvent.heading ⟨record.kind, id, change⟩]
      else [ChangeEvent.heading ⟨record.kind, id, change⟩] := by
  rw [headingsOf, eventsOf_of_change name changed, List.flatMap_singleton]

end

variable {options : Options} {store next last : Store} {outcome : Outcome}

theorem TrackStep.appends {record : TrackRecord}
    (step : TrackStep options store record next outcome) :
    store.Appends next (headingsOf (.track record, outcome)) := by
  have kept := Store.Appends.refl store
  cases step with
  | nameless | notImportable | known | gone =>
    rw [headingsOf_of_quiet rfl]
    exact kept
  | settled =>
    rw [headingsOf_of_quiet rfl]
    exact .of_eq rfl
  | created name =>
    have named : (LibraryRecord.track record).persistentId = some _ := name
    rw [headingsOf_of_change named rfl]
    exact (Store.Appends.of_eq rfl).record ..
  | merged name =>
    have named : (LibraryRecord.track record).persistentId = some _ := name
    rw [headingsOf_of_change named rfl]
    exact (Store.Appends.of_eq rfl).record ..

/-- A move is audited in front of the change. -/
theorem appends_recordPlaylistChange (h : store.Appends next []) (id : PersistentId)
    (old new : Option PersistentId) (moved : Bool) :
    store.Appends (recordPlaylistChange options next id old new moved)
      (if moved then [AuditKind.playlistMoved.heading id, AuditKind.playlistUpdated.heading id]
      else [AuditKind.playlistUpdated.heading id]) := by
  cases moved with
  | false => exact h.record ..
  | true => exact (h.record _ _ .playlistMoved id _ _).record ..

theorem audit_writePlaylist {playlist : Playlist} {written : Store}
    (write : store.writePlaylist playlist = .ok written) : written.audit = store.audit := by
  rw [(Store.of_writePlaylist write).2]

theorem PlaylistStep.appends {record : PlaylistRecord}
    (step : PlaylistStep options store record next outcome) :
    store.Appends next (headingsOf (.playlist record, outcome)) := by
  have kept := Store.Appends.refl store
  cases step with
  | nameless | system | known | gone | otherShape =>
    rw [headingsOf_of_quiet rfl]
    exact kept
  | settled =>
    rw [headingsOf_of_quiet rfl]
    exact .of_eq rfl
  | created name fresh write =>
    have named : (LibraryRecord.playlist record).persistentId = some _ := name
    rw [headingsOf_of_change named rfl]
    exact (Store.Appends.of_eq (audit_writePlaylist write)).record ..
  | merged name differs row base update something write =>
    have named : (LibraryRecord.playlist record).persistentId = some _ := name
    have kept := audit_writePlaylist write
    rw [headingsOf_of_change named rfl]
    refine appends_recordPlaylistChange ?_ ..
    exact .of_eq kept

theorem appends_of_syncRecord {record : LibraryRecord}
    (step : syncRecord options store record = .ok (next, outcome)) :
    store.Appends next (headingsOf (record, outcome)) := by
  cases record with
  | track record => exact (trackStep_of_syncTrack step).appends
  | playlist record => exact (playlistStep_of_syncPlaylist step).appends

/-- Records that are synchronised one by one are audited one by one. -/
theorem OneByOne.appends {log : List (LibraryRecord × Outcome)}
    (all : OneByOne options store log last) : store.Appends last (log.flatMap headingsOf) := by
  induction all with
  | nil => exact .refl _
  | taken step later ih =>
    rw [List.flatMap_cons]
    exact (appends_of_syncRecord step).trans ih
  | misplaced step refused later ih =>
    rw [List.flatMap_cons, headingsOf_of_quiet rfl]
    exact ih

/-! Pruning. -/

/-- The events of entries that are pruned. -/
def deletions (kind : EntityKind) (ids : List PersistentId) : List ChangeEvent :=
  ids.map fun id => ⟨kind, id, .deleted⟩

@[simp] theorem deletions_append (kind : EntityKind) (ids more : List PersistentId) :
    deletions kind (ids ++ more) = deletions kind ids ++ deletions kind more := List.map_append

theorem appends_pruneTrack (options : Options) (store : Store) (id : PersistentId) :
    store.Appends (pruneTrack options store id.hex).1
      ((deletions .track (pruneTrack options store id.hex).2.toList).map ChangeEvent.heading) := by
  generalize step : pruneTrack options store id.hex = result
  obtain ⟨next, id?⟩ := result
  cases trackPruning_of_pruneTrack step with
  | illegible => exact .of_eq rfl
  | absent => exact .of_eq rfl
  | removed parsed there =>
    rw [PersistentId.parse?_hex] at parsed
    cases parsed
    exact (Store.Appends.of_eq rfl).record ..

theorem appends_prunePlaylist {id : PersistentId} {id? : Option PersistentId}
    (h : prunePlaylist? options store id.hex = some (next, id?)) :
    store.Appends next ((deletions .playlist id?.toList).map ChangeEvent.heading) := by
  cases playlistPruning_of_prunePlaylist h with
  | illegible => exact .of_eq rfl
  | absent => exact .of_eq rfl
  | removed parsed remove =>
    rw [PersistentId.parse?_hex] at parsed
    cases parsed
    have same := (Store.of_removePlaylist remove).2.2
    subst same
    exact ((Store.Appends.of_eq rfl).record ..).trans (.of_eq rfl)

/-- Keys of entries are ids that are written out. -/
def AreIds (keys : List String) : Prop := ∀ key ∈ keys, ∃ id : PersistentId, key = id.hex

theorem areIds_staleIds (records : store.SnapshotsAreRecords) (kind : EntityKind)
    (seen : List String) : AreIds (staleIds options store kind seen) := by
  intro key mem
  obtain ⟨data, found⟩ := Option.ne_none_iff_exists'.1 (mem_staleIds.1 mem).1
  obtain ⟨record, id, -, -, same, -⟩ := records _ _ _ _ found
  exact ⟨id, same⟩

theorem appends_pruneTracks {keys : List String} (ids : AreIds keys) :
    store.Appends (pruneTracks options store keys).1
      ((deletions .track (pruneTracks options store keys).2).map ChangeEvent.heading) := by
  induction keys generalizing store with
  | nil => exact .refl store
  | cons key rest ih =>
    obtain ⟨id, rfl⟩ := ids key List.mem_cons_self
    have others : AreIds rest := fun key mem => ids key (List.mem_cons_of_mem _ mem)
    simp only [pruneTracks, deletions_append, List.map_append]
    exact (appends_pruneTrack options store id).trans (ih others)

theorem appends_pruneRound {keys : List String} (ids : AreIds keys) :
    store.Appends (pruneRound options store keys).store
      ((deletions .playlist (pruneRound options store keys).removed).map ChangeEvent.heading) := by
  induction keys generalizing store with
  | nil => exact .refl store
  | cons key rest ih =>
    obtain ⟨id, rfl⟩ := ids key List.mem_cons_self
    have others : AreIds rest := fun key mem => ids key (List.mem_cons_of_mem _ mem)
    unfold pruneRound
    cases step : prunePlaylist? options store id.hex with
    | none => exact ih others
    | some result =>
      obtain ⟨next, id?⟩ := result
      simp only [deletions_append, List.map_append]
      exact (appends_prunePlaylist step).trans (ih others)

theorem appends_prunePlaylists {pending : List String} (ids : AreIds pending) :
    store.Appends (prunePlaylists options store pending).1
      ((deletions .playlist (prunePlaylists options store pending).2).map
        ChangeEvent.heading) := by
  induction store, pending using prunePlaylists.induct options with
  | case1 store pending round fewer next removed whole ih =>
    have waiting : AreIds round.blocked := fun key mem => ids key (mem_of_mem_blocked mem)
    rw [prunePlaylists, if_pos fewer, deletions_append, List.map_append]
    exact (appends_pruneRound ids).trans (ih waiting)
  | case2 store pending round stuck =>
    rw [prunePlaylists, if_neg stuck]
    exact appends_pruneRound ids

/-- What pruning tells behind a stream. -/
def Progress.deletions (options : Options) (progress : Progress) : List ChangeEvent :=
  let tracks := pruneTracks options progress.store
    (staleIds options progress.store .track progress.seenTracks)
  let playlists := prunePlaylists options tracks.1
    (staleIds options tracks.1 .playlist progress.seenPlaylists)
  Sync.deletions .track tracks.2 ++ Sync.deletions .playlist playlists.2

theorem Progress.events_prune (options : Options) (progress : Progress) :
    (progress.prune options).events = progress.events ++ progress.deletions options :=
  List.append_assoc ..

/-- Each entry that is pruned is audited as it is told. -/
theorem Progress.appends_prune (options : Options) {progress : Progress}
    (records : progress.store.SnapshotsAreRecords) :
    progress.store.Appends (progress.prune options).store
      ((progress.deletions options).map ChangeEvent.heading) := by
  let tracks := staleIds options progress.store .track progress.seenTracks
  have kept : (pruneTracks options progress.store tracks).1.SnapshotsAreRecords := by
    rw [← run_pruneTracks]
    apply Store.run_induction
    · intro t _ store h
      exact Store.snapshotsAreRecords_commit h t
    · exact records
  rw [Progress.deletions, List.map_append]
  exact (appends_pruneTracks (areIds_staleIds records _ _)).trans
    (appends_prunePlaylists (areIds_staleIds kept _ _))

end Sync

end MusicLibrary
