import MusicLibrary.Failure
import MusicLibrary.Text.Blank
import MusicLibrary.Text.Numeral
import MusicLibrary.Word

/-! Settings: where the store lies, who acts, and whose library is synchronised. What is given
explicitly comes first, then the environment, then a default. -/

namespace MusicLibrary

structure Environment where
  lookup : String → Option String
  /-- The home directory of the account, for when no variable names one. -/
  accountHome : Option String := none

namespace Environment

def home? (env : Environment) : Option String :=
  match env.lookup "HOME" with
  | some home => if home.isEmpty then env.accountHome else some home
  | none => env.accountHome

/-- Whether a text switches something on: not if it is empty, a zero or the word false. -/
def isTruthy (text : String) : Bool :=
  !text.isEmpty && text != "0" && text.map Char.toLower != "false"

def isTestMode (env : Environment) : Bool := (env.lookup "TUNESYNC_TEST_MODE").any isTruthy

def below (directory path : String) : String :=
  if directory.isEmpty || directory.endsWith "/" then directory ++ path
  else directory ++ "/" ++ path

def storePath? (env : Environment) (given : Option String) : Option String :=
  match given, env.lookup "TUNESYNC_DB" with
  | some path, _ => some path
  | none, some path => if Text.isBlankText path then standard else some path
  | none, none => standard
where
  standard : Option String := env.home?.map fun home =>
    below home <|
      if env.isTestMode then ".tunesync/test/tunesync.db" else ".tunesync/data/tunesync.db"

def actor (env : Environment) (given : Option String) : String :=
  match given with
  | some actor => actor
  | none => (["TUNESYNC_ACTOR", "USER"].findSome? named).getD "unknown"
where
  named (name : String) : Option String := (env.lookup name).filter (!·.isEmpty)

def owner? (env : Environment) : Except Failure (Option Int64) :=
  match (env.lookup "TUNESYNC_OWNER").filter (!Text.isBlankText ·) with
  | none => .ok none
  | some text =>
    match (Text.readSigned 10 (Text.trim text).toList).bind word64? with
    | some owner => .ok (some owner)
    | none => .error (.settings ("TUNESYNC_OWNER is not an integer: " ++ text))

end Environment

structure Settings where
  storePath : String
  actor : String
  owner : Option Int64 := none
  skipsSystemPlaylists : Bool := true
  eventBuffer : Nat := 1024
  busyTimeoutMs : Nat := 5000
  deriving DecidableEq

namespace Settings

def resolve (env : Environment) (storePath actor : Option String) : Except Failure Settings :=
  match env.storePath? storePath with
  | none => .error (.settings "cannot determine home directory for the database")
  | some path => do
    let owner ← env.owner?
    return { storePath := path, actor := env.actor actor, owner }

end Settings

example : (Settings.resolve ⟨fun _ => none, some "/h"⟩ none none).toOption.map (·.storePath) =
    some "/h/.tunesync/data/tunesync.db" := by cbv

end MusicLibrary
