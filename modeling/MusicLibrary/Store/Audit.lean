import MusicLibrary.Record.Basic

/-! The audit trail: what was done to each entry, by whom and in which operation. -/

namespace MusicLibrary

inductive AuditKind where
  | trackCreated | trackUpdated | trackDeleted
  | playlistCreated | playlistUpdated | playlistTracksChanged | playlistMoved | playlistDeleted
  deriving DecidableEq, Inhabited

namespace AuditKind

def all : List AuditKind :=
  [.trackCreated, .trackUpdated, .trackDeleted, .playlistCreated, .playlistUpdated,
    .playlistTracksChanged, .playlistMoved, .playlistDeleted]

def label : AuditKind → String
  | .trackCreated => "track_created"
  | .trackUpdated => "track_updated"
  | .trackDeleted => "track_deleted"
  | .playlistCreated => "playlist_created"
  | .playlistUpdated => "playlist_updated"
  | .playlistTracksChanged => "playlist_tracks_changed"
  | .playlistMoved => "playlist_moved"
  | .playlistDeleted => "playlist_deleted"

def entity : AuditKind → EntityKind
  | .trackCreated | .trackUpdated | .trackDeleted => .track
  | _ => .playlist

def ofLabel? (s : String) : Option AuditKind := all.find? (·.label == s)

@[simp] theorem ofLabel?_label (kind : AuditKind) : ofLabel? kind.label = some kind := by
  cases kind <;> decide

end AuditKind

/-- A line of the audit trail. Its kind may be one that is not known here. -/
structure AuditEntry where
  entity : String
  entityId : String
  kind : String
  actor : String
  old : Option String := none
  new : Option String := none
  /-- The operation. -/
  comment : Option String := none
  time : Int64
  deriving DecidableEq, Inhabited

namespace AuditEntry

def isKnown (entry : AuditEntry) : Bool := (AuditKind.ofLabel? entry.kind).isSome

def isAbout (entry : AuditEntry) (entity entityId : String) : Bool :=
  entry.entity == entity && entry.entityId == entityId

end AuditEntry

/-- The lines so far, the oldest one first. -/
abbrev Audit := List AuditEntry

namespace Audit

def numbered (audit : Audit) : List (AuditEntry × Nat) := audit.zipIdx 1

def standardLimit : Nat := 100

/-- The newest lines about an entry, the newest one first: by time, then by number. The limit
counts also those of an unknown kind, which are then left out. -/
def newest (audit : Audit) (entity entityId : String) (limit : Option Nat) :
    List (AuditEntry × Nat) :=
  let lines := (audit.numbered.filter (·.1.isAbout entity entityId)).reverse
  let sorted := lines.mergeSort fun a b => decide (b.1.time ≤ a.1.time)
  (sorted.take (limit.getD standardLimit)).filter (·.1.isKnown)

end Audit

end MusicLibrary
