import MusicLibrary.Proofs.Store.MembershipChange
import MusicLibrary.Proofs.Store.SameTables
import MusicLibrary.Proofs.Sync.Stream
import MusicLibrary.Proofs.Sync.TrackRun

/-! What a record reads of a store is what it writes: of a track its own row and snapshot, of a
playlist its own snapshot and all playlists with their lists. So what becomes of a record is decided
by these parts alone, and records that share none of them can change places. -/

namespace MusicLibrary

namespace Store

/-- The parts of a store. -/
inductive Part where
  | track (id : PersistentId)
  | snapshot (key : SnapshotKey)
  /-- The playlists and their lists of tracks. -/
  | playlists

/-- The kind of entries that a part is of. -/
def Part.kind : Part → EntityKind
  | .track _ => .track
  | .snapshot key => key.kind
  | .playlists => .playlist

/-- Two stores have the same part. -/
def Part.Same : Part → Store → Store → Prop
  | .track id, a, b => a.track? id = b.track? id
  | .snapshot key, a, b =>
    a.snapshot? key.kind key.owner key.id = b.snapshot? key.kind key.owner key.id
  | .playlists, a, b => a.playlists = b.playlists ∧ a.memberships = b.memberships

namespace Part.Same

variable {part : Part} {a b c : Store}

theorem refl (part : Part) (store : Store) : part.Same store store := by
  cases part with
  | playlists => exact ⟨rfl, rfl⟩
  | _ => rfl

theorem symm (h : part.Same a b) : part.Same b a := by
  cases part with
  | playlists => exact ⟨h.1.symm, h.2.symm⟩
  | _ => exact Eq.symm h

theorem trans (h : part.Same a b) (h' : part.Same b c) : part.Same a c := by
  cases part with
  | playlists => exact ⟨h.1.trans h'.1, h.2.trans h'.2⟩
  | _ => exact Eq.trans h h'

end Part.Same

/-- A store is no more than its parts and its audit trail. -/
theorem sameTables_iff {a b : Store} : SameTables a b ↔ ∀ part : Part, part.Same a b := by
  constructor
  · intro same part
    cases part with
    | track id => exact congrArg (·.find? id.key) same.tracks
    | snapshot key => exact snapshot?_of_snapshots same.snapshots _ _ _
    | playlists => exact ⟨same.playlists, same.memberships⟩
  · intro same
    have tracks : a.tracks = b.tracks := by
      apply Table.eq_of_mem_iff
      intro row
      have found : a.track? row.id = b.track? row.id := same (.track row.id)
      rw [Table.mem_iff_find?, Table.mem_iff_find?]
      exact (congrArg (· = some row) found).to_iff
    have whole := same .playlists
    exact ⟨tracks, whole.1, whole.2,
      snapshots_eq_of_snapshot?_eq fun kind owner key => same (.snapshot ⟨kind, owner, key⟩)⟩

end Store

namespace Sync

open Store (Part SameTables)

/-- The parts that a record reads and writes. -/
def Owns (options : Options) : LibraryRecord → Part → Prop
  | .track record, .track id => ∃ own, record.persistentId = some own ∧ own.key = id.key
  | record, .snapshot key =>
    ∃ own, record.persistentId = some own ∧ key = ⟨record.kind, options.owner, own.hex⟩
  | .playlist _, .playlists => True
  | _, _ => False

/-- All that the record is about is the same in both stores. -/
def Agree (options : Options) (record : LibraryRecord) (a b : Store) : Prop :=
  ∀ part, Owns options record part → part.Same a b

/-- Two steps fail in the same way, or they come to the same outcome and to like stores. -/
inductive StepsAlike (like : Store → Store → Prop) : Step → Step → Prop
  | failed {failure} : StepsAlike like (.error failure) (.error failure)
  | done {a b outcome} (stores : like a b) : StepsAlike like (.ok (a, outcome)) (.ok (b, outcome))

variable {options : Options} {a b store next : Store} {outcome : Outcome} {id : PersistentId}

/-- What is told to the audit trails is no part of the stores. -/
theorem Agree.recorded {record : LibraryRecord} (h : Agree options record a b)
    {actor operation : String} {kind : AuditKind} {entityId : String} {old new : Option String} :
    Agree options record (a.record actor operation kind entityId old new)
      (b.record actor operation kind entityId old new) := by
  intro part own
  have same := h part own
  cases part with
  | playlists => exact same
  | _ => exact same

/-! Tracks. -/

section

variable {record : TrackRecord}

theorem agree_track (name : record.persistentId = some id) (row : ∀ own : PersistentId,
    id.key = own.key → a.track? own = b.track? own)
    (baseline : a.snapshot? .track options.owner id.hex = b.snapshot? .track options.owner id.hex) :
    Agree options (.track record) a b := by
  intro part own
  cases part with
  | track other =>
    obtain ⟨named, name', key⟩ := own
    cases name.symm.trans name'
    exact row other key
  | snapshot key =>
    obtain ⟨named, name', rfl⟩ := own
    cases name.symm.trans name'
    exact baseline
  | playlists => cases own

/-- A track that is written to both stores, with its snapshot. -/
theorem agree_written (name : record.persistentId = some id) {track : Track}
    (key : track.id.key = id.key) (data : String) :
    Agree options (.track record)
      ((a.writeTrack track).putSnapshot .track options.owner id.hex data)
      ((b.writeTrack track).putSnapshot .track options.owner id.hex data) := by
  refine agree_track name (fun own same => ?_) ?_
  · have found := a.track?_writeTrack (key.trans same)
    exact found.trans (b.track?_writeTrack (key.trans same)).symm
  · rw [Store.snapshot?_putSnapshot_self, Store.snapshot?_putSnapshot_self]

theorem alike_mergeTrack (h : Agree options (.track record) a b)
    (name : record.persistentId = some id) {previous : String} {stored : Track}
    (key : stored.id.key = id.key) :
    StepsAlike (Agree options (.track record)) (mergeTrack options a id record previous stored)
      (mergeTrack options b id record previous stored) := by
  unfold mergeTrack
  cases recordOf TrackRecord.ofJson? (·.persistentId) previous with
  | error failure => exact .failed
  | ok old =>
    simp only [bind, Except.bind, pure, Except.pure]
    cases update : stored.update? (.ofRecord old.1 old.2) (.ofRecord id record) options.now with
    | none => exact .failed
    | some result =>
      dsimp only [Store.told]
      split
      · refine .done (agree_track name (fun own same => ?_) ?_)
        · exact h (.track own) ⟨id, name, same⟩
        · rw [Store.snapshot?_putSnapshot_self, Store.snapshot?_putSnapshot_self]
      · refine .done (Agree.recorded (agree_written name ?_ record.toJson.compact))
        rw [Track.id_of_update? update]
        exact key

theorem alike_syncTrack (h : Agree options (.track record) a b) :
    StepsAlike (Agree options (.track record)) (syncTrack options a record)
      (syncTrack options b record) := by
  unfold syncTrack
  cases name : record.persistentId with
  | none => exact .done h
  | some id =>
    have baseline : a.snapshot? .track options.owner id.hex =
        b.snapshot? .track options.owner id.hex :=
      h (.snapshot ⟨.track, options.owner, id.hex⟩) ⟨id, name, rfl⟩
    have row : a.track? id = b.track? id := h (.track id) ⟨id, name, rfl⟩
    dsimp only
    rw [← baseline, ← row]
    split
    · exact .done h
    · cases a.snapshot? .track options.owner id.hex with
      | none =>
        refine .done (Agree.recorded (agree_written name ?_ record.toJson.compact))
        rfl
      | some previous =>
        dsimp only
        split
        · exact .done h
        · cases there : a.track? id with
          | none => exact .done h
          | some stored => exact alike_mergeTrack h name (Store.key_of_track? there)

end

/-! Playlists. -/

theorem playlist?_congr (same : Part.playlists.Same a b) (id : PersistentId) :
    a.playlist? id = b.playlist? id := by
  unfold Store.playlist? Store.trackIds
  rw [same.1, same.2]

theorem writePlaylist_congr (same : Part.playlists.Same a b) (playlist : Playlist) :
    b.writePlaylist playlist = (a.writePlaylist playlist).map fun written =>
      { b with playlists := written.playlists, memberships := written.memberships } := by
  unfold Store.writePlaylist Store.checkHierarchy Store.writeTrackIds
  rw [same.1, same.2]
  cases Store.checkAbove b.playlists playlist.id [playlist.id] playlist.parentId <;> rfl

section

variable {record : PlaylistRecord}

theorem agree_playlist (name : record.persistentId = some id) (same : Part.playlists.Same a b)
    (baseline : a.snapshot? .playlist options.owner id.hex =
      b.snapshot? .playlist options.owner id.hex) : Agree options (.playlist record) a b := by
  intro part own
  cases part with
  | track other => cases own
  | snapshot key =>
    obtain ⟨named, name', rfl⟩ := own
    cases name.symm.trans name'
    exact baseline
  | playlists => exact same

theorem agree_putSnapshot (name : record.persistentId = some id) (same : Part.playlists.Same a b)
    (data : String) :
    Agree options (.playlist record) (a.putSnapshot .playlist options.owner id.hex data)
      (b.putSnapshot .playlist options.owner id.hex data) := by
  refine agree_playlist name same ?_
  rw [Store.snapshot?_putSnapshot_self, Store.snapshot?_putSnapshot_self]

theorem Agree.moved (h : Agree options (.playlist record) a b) {playlist : PersistentId}
    {old new : Option PersistentId} {moved : Bool} :
    Agree options (.playlist record) (recordPlaylistChange options a playlist old new moved)
      (recordPlaylistChange options b playlist old new moved) := by
  cases moved with
  | false => exact h.recorded
  | true => exact Agree.recorded h.recorded

theorem alike_mergePlaylist (h : Agree options (.playlist record) a b)
    (name : record.persistentId = some id) (previous : String) (stored : Playlist) :
    StepsAlike (Agree options (.playlist record))
      (mergePlaylist options a id record previous stored)
      (mergePlaylist options b id record previous stored) := by
  have same : Part.playlists.Same a b := h .playlists trivial
  unfold mergePlaylist
  cases recordOf PlaylistRecord.ofJson? (·.persistentId) previous with
  | error failure => exact .failed
  | ok old =>
    simp only [bind, Except.bind, pure, Except.pure]
    split
    · exact .done h
    · rename_i playlist change update
      split
      · exact .done (agree_putSnapshot name same record.toJson.compact)
      · rw [writePlaylist_congr same playlist]
        cases a.writePlaylist playlist with
        | error failure => exact .failed
        | ok written =>
          refine .done (Agree.moved (agree_putSnapshot name ?_ record.toJson.compact))
          exact ⟨rfl, rfl⟩

theorem alike_syncPlaylist (h : Agree options (.playlist record) a b) :
    StepsAlike (Agree options (.playlist record)) (syncPlaylist options a record)
      (syncPlaylist options b record) := by
  have same : Part.playlists.Same a b := h .playlists trivial
  unfold syncPlaylist
  cases name : record.persistentId with
  | none => exact .done h
  | some id =>
    have baseline : a.snapshot? .playlist options.owner id.hex =
        b.snapshot? .playlist options.owner id.hex :=
      h (.snapshot ⟨.playlist, options.owner, id.hex⟩) ⟨id, name, rfl⟩
    dsimp only
    rw [← baseline, ← playlist?_congr same id]
    split
    · exact .done h
    · cases a.snapshot? .playlist options.owner id.hex with
      | none =>
        simp only [createPlaylist, writePlaylist_congr same]
        cases a.writePlaylist (.ofRecord id record) with
        | error failure => exact .failed
        | ok written =>
          refine .done (Agree.recorded (agree_putSnapshot name ?_ record.toJson.compact))
          exact ⟨rfl, rfl⟩
      | some previous =>
        dsimp only
        split
        · exact .done h
        · cases a.playlist? id with
          | error failure => exact .failed
          | ok row =>
            cases row with
            | none => exact .done h
            | some stored => exact alike_mergePlaylist h name previous stored

end

/-- What becomes of a record, and of what it is about, is decided by what it is about. -/
theorem alike_placeRecord {record : LibraryRecord} (h : Agree options record a b) :
    StepsAlike (Agree options record) (placeRecord options a record)
      (placeRecord options b record) := by
  cases record with
  | track record => exact alike_syncTrack h
  | playlist record =>
    have alike := alike_syncPlaylist h
    change StepsAlike _ (Progress.placePlaylist options a record)
      (Progress.placePlaylist options b record)
    unfold Progress.placePlaylist
    generalize syncPlaylist options a record = first at alike ⊢
    generalize syncPlaylist options b record = second at alike ⊢
    cases alike with
    | done stores => exact .done stores
    | @failed failure =>
      dsimp only
      split
      · exact .done h
      · exact .failed

/-! What a record leaves alone. -/

theorem same_of_syncTrack {record : TrackRecord} {part : Part}
    (step : syncTrack options store record = .ok (next, outcome))
    (other : ¬ Owns options (.track record) part) : part.Same store next := by
  cases part with
  | track id =>
    refine (Store.track?_of_syncTrack step ?_).symm
    intro own name key
    exact other ⟨own, name, key⟩
  | snapshot key =>
    refine (snapshot?_of_syncTrack step ?_).symm
    rintro own name rfl
    exact other ⟨own, name, rfl⟩
  | playlists =>
    exact ⟨(Store.playlists_of_syncTrack step).symm, (Store.memberships_of_syncTrack step).symm⟩

theorem same_of_syncPlaylist {record : PlaylistRecord} {part : Part}
    (step : syncPlaylist options store record = .ok (next, outcome))
    (other : ¬ Owns options (.playlist record) part) : part.Same store next := by
  cases part with
  | track id => exact (Store.track?_of_tracks (Store.tracks_of_syncPlaylist step) id).symm
  | snapshot key =>
    refine (snapshot?_of_syncPlaylist step ?_).symm
    rintro own name rfl
    exact other ⟨own, name, rfl⟩
  | playlists => exact absurd trivial other

/-- A record leaves alone what it is not about. -/
theorem same_of_placeRecord {record : LibraryRecord} {part : Part}
    (step : placeRecord options store record = .ok (next, outcome))
    (other : ¬ Owns options record part) : part.Same store next := by
  cases record with
  | track record => exact same_of_syncTrack step other
  | playlist record =>
    change Progress.placePlaylist options store record = .ok (next, outcome) at step
    unfold Progress.placePlaylist at step
    split at step
    · split at step
      · cases step
        exact .refl part store
      · cases step
    · exact same_of_syncPlaylist step other

/-! Records that change places. -/

/-- No part is read or written by both records. -/
def Independent (options : Options) (x y : LibraryRecord) : Prop :=
  ∀ part, Owns options x part → ¬ Owns options y part

theorem Independent.symm {x y : LibraryRecord} (h : Independent options x y) :
    Independent options y x := fun part own own' => h part own' own

theorem kind_of_owns {record : LibraryRecord} {part : Part} (own : Owns options record part) :
    part.kind = record.kind := by
  cases record with
  | track record =>
    cases part with
    | track id => rfl
    | snapshot key =>
      obtain ⟨named, _, rfl⟩ := own
      rfl
    | playlists => cases own
  | playlist record =>
    cases part with
    | track id => cases own
    | snapshot key =>
      obtain ⟨named, _, rfl⟩ := own
      rfl
    | playlists => rfl

/-- A track and a playlist are independent. -/
theorem independent_of_kind_ne {x y : LibraryRecord} (other : x.kind ≠ y.kind) :
    Independent options x y :=
  fun _ own own' => other ((kind_of_owns own).symm.trans (kind_of_owns own'))

/-- Tracks with different keys are independent. -/
theorem independent_tracks {x y : TrackRecord} (keys : ∀ a b, x.persistentId = some a →
    y.persistentId = some b → a.key ≠ b.key) : Independent options (.track x) (.track y) := by
  intro part own own'
  cases part with
  | track id =>
    obtain ⟨a, name, key⟩ := own
    obtain ⟨b, name', key'⟩ := own'
    exact keys a b name name' (key.trans key'.symm)
  | snapshot key =>
    obtain ⟨a, name, rfl⟩ := own
    obtain ⟨b, name', same⟩ := own'
    rw [SnapshotKey.mk.injEq] at same
    obtain rfl := PersistentId.hex_injective same.2.2
    exact keys a a name name' rfl
  | playlists => cases own

theorem StepsAlike.of_ok {like : Store → Store → Prop} {first second : Step}
    (h : StepsAlike like first second) (done : first = .ok (a, outcome)) :
    ∃ b, second = .ok (b, outcome) ∧ like a b := by
  cases h with
  | failed => cases done
  | done stores =>
    cases done
    exact ⟨_, rfl, stores⟩

theorem StepsAlike.of_error {like : Store → Store → Prop} {first second : Step} {failure : Failure}
    (h : StepsAlike like first second) (failed : first = .error failure) :
    second = .error failure := by
  cases h with
  | failed => exact failed
  | done stores => cases failed

/-- In stores that are the same a record comes to the same. -/
theorem alike_of_sameTables (same : SameTables a b) (record : LibraryRecord) :
    StepsAlike SameTables (placeRecord options a record) (placeRecord options b record) := by
  have parts := Store.sameTables_iff.1 same
  have agree : Agree options record a b := fun part _ => parts part
  cases first : placeRecord options a record with
  | error failure =>
    rw [(alike_placeRecord agree).of_error first]
    exact .failed
  | ok result =>
    obtain ⟨next, outcome⟩ := result
    obtain ⟨next', second, agree'⟩ := (alike_placeRecord agree).of_ok first
    rw [second]
    refine .done (Store.sameTables_iff.2 fun part => ?_)
    by_cases own : Owns options record part
    · exact agree' part own
    · exact ((same_of_placeRecord first own).symm.trans (parts part)).trans
        (same_of_placeRecord second own)

/-- Independent records come to the same in either order. -/
theorem placeRecord_swap {x y : LibraryRecord} {s s₁ s₂ : Store} {o o' : Outcome}
    (apart : Independent options x y) (first : placeRecord options s x = .ok (s₁, o))
    (second : placeRecord options s₁ y = .ok (s₂, o')) :
    ∃ t₁ t₂, placeRecord options s y = .ok (t₁, o') ∧ placeRecord options t₁ x = .ok (t₂, o) ∧
      SameTables s₂ t₂ := by
  -- Each of them meets the same, whether the other one has come before or not.
  have unmoved : Agree options y s₁ s :=
    fun part own => (same_of_placeRecord first (apart.symm part own)).symm
  obtain ⟨t₁, early, agreeY⟩ := (alike_placeRecord unmoved).of_ok second
  have unmoved' : Agree options x s t₁ :=
    fun part own => same_of_placeRecord early (apart part own)
  obtain ⟨t₂, late, agreeX⟩ := (alike_placeRecord unmoved').of_ok first
  refine ⟨t₁, t₂, early, late, Store.sameTables_iff.2 fun part => ?_⟩
  by_cases ownX : Owns options x part
  · exact (same_of_placeRecord second (apart part ownX)).symm.trans (agreeX part ownX)
  · have after := same_of_placeRecord late ownX
    by_cases ownY : Owns options y part
    · exact (agreeY part ownY).trans after
    · have before := (same_of_placeRecord first ownX).trans (same_of_placeRecord second ownY)
      exact before.symm.trans ((same_of_placeRecord early ownY).trans after)

end Sync

end MusicLibrary
