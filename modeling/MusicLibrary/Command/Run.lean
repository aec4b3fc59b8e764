import MusicLibrary.Command.Arguments
import MusicLibrary.Command.Report
import MusicLibrary.Record.Lines
import MusicLibrary.Settings
import MusicLibrary.Store.Edit
import MusicLibrary.Sync.Stream

/-! Carrying out commands. What was done to the store before a failure stays done. -/

namespace MusicLibrary

structure Surroundings where
  settings : Settings
  context : Query.Context
  plan : Query.Plan
  file? : String → Option (List UInt8)

namespace Command

def usesStore : Command → Bool
  | .decodeSmart .. | .smartQuery .. | .version => false
  | _ => true

def changesStore : Command → Bool
  | .init _ | .sync .. | .deletePlaylist _ | .removeTracks .. => true
  | _ => false

def file? : Command → Option String
  | .sync file _ => some file
  | _ => none

def readId (text : String) : Except Failure PersistentId :=
  match PersistentId.parse? text with
  | some id => .ok id
  | none => .error (.invalidPersistentId (Text.trim text))

/-- The store, if there is one. -/
def opened : Option Store → Except Failure Store
  | some store => .ok store
  | none => .error .notInitialized

def readSmart (info criteria : String) : Except Failure Smart :=
  (Smart.decodeTexts info criteria).mapError .decode

def trackReport (store? : Option Store) (id : String) : Except Failure Report := do
  let id ← readId id
  let store ← opened store?
  match store.track? id with
  | some track => return .ofTrack track
  | none => .error (.trackNotFound id.hex)

def playlistReport (around : Surroundings) (store? : Option Store) (id : String) :
    Except Failure Report := do
  let id ← readId id
  let store ← opened store?
  match ← store.playlist? id with
  | some playlist => return .ofPlaylist playlist around.context
  | none => .error (.playlistNotFound id.hex)

def tracksReport (around : Surroundings) (store? : Option Store) (id : String) :
    Except Failure Report := do
  let id ← readId id
  let store ← opened store?
  return .ofTracks id (← store.tracksOf around.plan id around.context)

/-- Lists the playlists in a folder, which has to exist, or at the top level. -/
def childrenReport (store? : Option Store) (id : Option String) : Except Failure Report := do
  let parent ← id.mapM readId
  let store ← opened store?
  match parent with
  | none => return .ofChildren none (← store.children none)
  | some id =>
    match ← store.playlist? id with
    | some _ => return .ofChildren (some id) (← store.children (some id))
    | none => .error (.playlistNotFound id.hex)

/-- Sets up a store; an existing one is kept unless it is to be replaced. -/
def setUp (around : Surroundings) (store? : Option Store) (force : Bool) : Store × Report :=
  let kept := if force then none else store?
  let store := kept.getD .empty
  (store, .ofStore around.settings.storePath kept.isNone store.tracks.size store.playlists.size)

def synchronize (around : Surroundings) (store : Store) (file : String) (includeSystem : Bool) :
    Store × Except Failure Report :=
  match around.file? file with
  | none => (store, .error (.invalidArgument ("file not found: " ++ file)))
  | some bytes =>
    let options : Sync.Options := {
      owner := around.settings.owner
      skipsSystemPlaylists := !includeSystem
      actor := around.settings.actor
      now := around.context.now }
    let ⟨progress, failure?⟩ := Sync.stream options store (RecordLines.read bytes)
    (progress.store, match failure? with
      | some failure => .error failure
      | none => .ok (.ofSync file progress.stats progress.events))

def delete (around : Surroundings) (store? : Option Store) (id : String) :
    Except Failure (Store × Report) := do
  let id ← readId id
  let store ← opened store?
  return (← store.deletePlaylist id around.settings.actor, .ofDeletion id)

def remove (around : Surroundings) (store? : Option Store) (id : String) (tracks : List String) :
    Except Failure (Store × Report) := do
  let id ← readId id
  let tracks ← tracks.mapM readId
  let store ← opened store?
  let (store, removed) ← store.removeTracks id tracks around.settings.actor
  return (store, .ofRemoval id removed)

/-- The store and the report of a change; a change that fails leaves the store as it was. -/
def settled (store? : Option Store) :
    Except Failure (Store × Report) → Option Store × Except Failure Report
  | .ok (store, report) => (some store, .ok report)
  | .error failure => (store?, .error failure)

/-- Carries out a command: the store behind it, and the report or the failure. -/
def run (around : Surroundings) (store? : Option Store) :
    Command → Option Store × Except Failure Report
  | .init force =>
    let (store, report) := setUp around store? force
    (some store, .ok report)
  | .sync file includeSystem =>
    match store? with
    | none => (none, .error .notInitialized)
    | some store =>
      let (store, report) := synchronize around store file includeSystem
      (some store, report)
  | .deletePlaylist id => settled store? (delete around store? id)
  | .removeTracks id tracks => settled store? (remove around store? id tracks)
  | .showTrack id => (store?, trackReport store? id)
  | .showPlaylist id => (store?, playlistReport around store? id)
  | .listTracks id => (store?, tracksReport around store? id)
  | .listChildren id => (store?, childrenReport store? id)
  | .decodeSmart info criteria => (store?, (readSmart info criteria).map .ofSmart)
  | .smartQuery info criteria =>
    (store?, (readSmart info criteria).map fun smart =>
      .ofQuery (.ofSmart smart around.context))
  | .version => (store?, .ok .ofVersion)

end Command

end MusicLibrary
