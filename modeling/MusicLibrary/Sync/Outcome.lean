import MusicLibrary.Json.Fields

/-! What became of the records of a stream, one by one and in numbers. -/

namespace MusicLibrary.Sync

inductive SkipReason where
  | missingPersistentId
  /-- The track is disabled or has no file. -/
  | notImportable
  | systemPlaylist
  /-- The entry was deleted here since the last synchronisation; it stays deleted. -/
  | deletedLocally
  /-- A folder does not become a list, and a list does not become smart. -/
  | shapeChanged
  | misplaced
  deriving DecidableEq, Inhabited

inductive Outcome where
  | created
  | updated (parentChanged conflict : Bool)
  /-- It is as it was before, or its change came to nothing. -/
  | unchanged
  | skipped (reason : SkipReason)
  deriving DecidableEq, Inhabited

structure EntityStats where
  created : Nat := 0
  updated : Nat := 0
  unchanged : Nat := 0
  skipped : Nat := 0
  /-- Entries that the stream no longer has. -/
  deleted : Nat := 0
  /-- Updates whose track lists could not be merged. -/
  conflicts : Nat := 0
  deriving DecidableEq, Inhabited

namespace EntityStats

def record (stats : EntityStats) : Outcome → EntityStats
  | .created => { stats with created := stats.created + 1 }
  | .updated _ conflict =>
    { stats with updated := stats.updated + 1, conflicts := stats.conflicts + conflict.toNat }
  | .unchanged => { stats with unchanged := stats.unchanged + 1 }
  | .skipped _ => { stats with skipped := stats.skipped + 1 }

def processed (stats : EntityStats) : Nat :=
  stats.created + stats.updated + stats.unchanged + stats.skipped

def changed (stats : EntityStats) : Nat := stats.created + stats.updated + stats.deleted

def toJson (stats : EntityStats) : Json :=
  .object [("created", .ofNat stats.created), ("updated", .ofNat stats.updated),
    ("unchanged", .ofNat stats.unchanged), ("skipped", .ofNat stats.skipped),
    ("deleted", .ofNat stats.deleted), ("conflicts", .ofNat stats.conflicts)]

@[simp] theorem processed_record (stats : EntityStats) (outcome : Outcome) :
    (stats.record outcome).processed = stats.processed + 1 := by
  cases outcome <;> simp [record, processed] <;> omega

end EntityStats

structure Stats where
  tracks : EntityStats := {}
  playlists : EntityStats := {}
  /-- The stream could not be read to its end, and nothing was pruned. -/
  aborted : Bool := false
  deriving DecidableEq, Inhabited

namespace Stats

def processed (stats : Stats) : Nat := stats.tracks.processed + stats.playlists.processed

def changed (stats : Stats) : Nat := stats.tracks.changed + stats.playlists.changed

def toJson (stats : Stats) : Json :=
  .object [("tracks", stats.tracks.toJson), ("playlists", stats.playlists.toJson),
    ("aborted", .boolean stats.aborted)]

end Stats

end MusicLibrary.Sync
