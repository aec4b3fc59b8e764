import MusicLibrary.Json.Fields
import MusicLibrary.Smart.DecodeFault

/-! What can go wrong in an operation on the library, and how it is told to a user and to a
program: a code, a message, a way out, and the exit code of a command. -/

namespace MusicLibrary

/-- Why an operation did not take place. Ids are given as they were asked for. -/
inductive Failure where
  | notInitialized
  | store (detail : String)
  | io (detail : String)
  | json (detail : String)
  | decode (fault : Smart.DecodeFault)
  | invalidPersistentId (text : String)
  | trackNotFound (id : String)
  | playlistNotFound (id : String)
  | circularFolder (id parent : String)
  | noSuchFolder (id parent : String)
  | parentNotAFolder (id parent : String)
  | folderNotEmpty (id : String)
  | missingPersistentId
  | invalidArgument (detail : String)
  | settings (detail : String)
  | other (detail : String)
  /-- A number leaves the range of a word. The program does not report this, it ends. -/
  | overflow
  deriving DecidableEq

namespace Failure

def code : Failure → String
  | .notInitialized => "NOT_INITIALIZED"
  | .store _ => "DATABASE_ERROR"
  | .io _ => "IO_ERROR"
  | .json _ => "JSON_ERROR"
  | .decode _ => "DECODE_ERROR"
  | .invalidPersistentId _ => "INVALID_PERSISTENT_ID"
  | .trackNotFound _ => "TRACK_NOT_FOUND"
  | .playlistNotFound _ => "PLAYLIST_NOT_FOUND"
  | .circularFolder .. => "CIRCULAR_PLAYLIST_FOLDER"
  | .noSuchFolder .. => "NO_SUCH_PLAYLIST_FOLDER"
  | .parentNotAFolder .. => "PARENT_NOT_A_FOLDER"
  | .folderNotEmpty _ => "PLAYLIST_FOLDER_NOT_EMPTY"
  | .missingPersistentId => "MISSING_PERSISTENT_ID"
  | .invalidArgument _ => "INVALID_ARGUMENT"
  | .settings _ => "CONFIG_ERROR"
  | .other _ => "INTERNAL_ERROR"
  | .overflow => "OVERFLOW"

def message : Failure → String
  | .notInitialized => "Not initialized: run `tunesync init` first"
  | .store detail => "Database error: " ++ detail
  | .io detail => "IO error: " ++ detail
  | .json detail => "JSON error: " ++ detail
  | .decode fault => "Smart playlist decode error: " ++ fault.message
  | .invalidPersistentId text => "Invalid persistent id: " ++ text
  | .trackNotFound id => "Track not found: " ++ id
  | .playlistNotFound id => "Playlist not found: " ++ id
  | .circularFolder id parent =>
    "Playlist " ++ id ++ " cannot be placed under " ++ parent ++ ": folders would form a cycle"
  | .noSuchFolder id parent =>
    "Parent folder " ++ parent ++ " of playlist " ++ id ++ " does not exist"
  | .parentNotAFolder id parent =>
    "Parent " ++ parent ++ " of playlist " ++ id ++ " is not a folder"
  | .folderNotEmpty id => "Playlist folder " ++ id ++ " is not empty"
  | .missingPersistentId => "Record has no persistent id"
  | .invalidArgument detail => "Invalid argument: " ++ detail
  | .settings detail => "Configuration error: " ++ detail
  | .other detail => detail
  | .overflow => "attempt to calculate with overflow"

/-- The exit code of a command, by the area of the failure. -/
def exitCode : Failure → Nat
  | .other _ => 1
  | .notInitialized | .store _ => 2
  | .trackNotFound _ | .playlistNotFound _ => 3
  | .invalidArgument _ | .invalidPersistentId _ | .missingPersistentId | .decode _ => 4
  | .circularFolder .. | .noSuchFolder .. | .parentNotAFolder .. | .folderNotEmpty _ => 5
  | .settings _ => 7
  | .io _ | .json _ => 8
  | .overflow => 101

def isRetryable : Failure → Bool
  | .invalidArgument _ | .invalidPersistentId _ | .store _ | .noSuchFolder .. => true
  | _ => false

def hint? : Failure → Option String
  | .notInitialized => some "Run `tunesync init` to create the database"
  | .invalidPersistentId _ =>
    some "Persistent ids are 16 hexadecimal digits, e.g. 2F1C3B5A7D9E0F11"
  | .trackNotFound _ | .playlistNotFound _ =>
    some "Run `tunesync sync <file>` to import the library first"
  | .folderNotEmpty id =>
    some ("Move or delete the playlists inside " ++ id ++
      " first. Use `tunesync playlist children " ++ id ++ "` to list them.")
  | .noSuchFolder .. =>
    some "Sync the parent folder before its children, or retry once the folder exists"
  | .decode _ =>
    some "Pass the smart info and criteria blobs exactly as they appear in the library file"
  | _ => none

def isMisplaced : Failure → Bool
  | .circularFolder .. | .noSuchFolder .. | .parentNotAFolder .. => true
  | _ => false

def toJson (failure : Failure) : Json :=
  .object [("error", .ofMembers [
    some ("code", .text failure.code), some ("message", .text failure.message),
    some ("retryable", .boolean failure.isRetryable),
    some ("exit_code", .ofNat failure.exitCode),
    Json.member "hint" Json.text failure.hint?])]

def lines (failure : Failure) : List String :=
  ("Error: " ++ failure.message) :: (failure.hint?.map ("  Hint: " ++ ·)).toList

end Failure

end MusicLibrary
