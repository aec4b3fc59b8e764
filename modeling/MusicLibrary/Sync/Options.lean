import MusicLibrary.Change.Event
import MusicLibrary.Json.Printer
import MusicLibrary.Store.Basic
import MusicLibrary.Sync.Outcome

/-! How a synchronisation is run, and what a step of it yields. -/

namespace MusicLibrary.Sync

structure Options where
  /-- Snapshots and pruning are confined to the library of this owner. -/
  owner : Option Int64 := none
  skipsSystemPlaylists : Bool := true
  actor : String
  now : Timestamp
  deriving DecidableEq

/-- What a step yields: the store behind it, and what became of the record. -/
abbrev Step := Except Failure (Store × Outcome)

/-- What an outcome says about the entry: only a write is a change. -/
def Outcome.change? : Outcome → Option ChangeKind
  | .created => some .created
  | .updated .. => some .changed
  | .unchanged | .skipped _ => none

def Outcome.events (outcome : Outcome) (kind : EntityKind) (id : Option PersistentId) :
    List ChangeEvent :=
  match id, outcome.change? with
  | some id, some change => [⟨kind, id, change⟩]
  | _, _ => []

def unreadableSnapshot : Failure := .json "a snapshot cannot be read"

def recordOf (read : Json → Option α) (id : α → Option PersistentId) (data : String) :
    Except Failure (PersistentId × α) :=
  match (Json.parse? data).bind read with
  | none => .error unreadableSnapshot
  | some record =>
    match id record with
    | none => .error .missingPersistentId
    | some id => .ok (id, record)

end MusicLibrary.Sync
