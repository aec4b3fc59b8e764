import MusicLibrary.Command.Run
import MusicLibrary.Store.Document

/-! The command line: it reads the arguments, the environment and the files, carries out the
command, keeps the store, and prints what there is to say. -/

namespace MusicLibrary.Console

def bytes? (path : String) : IO (Option (List UInt8)) := do
  match ← (IO.FS.readBinFile path).toBaseIO with
  | .ok bytes => return some bytes.toList
  | .error _ => return none

def environment : IO Environment := do
  let names := ["HOME", "USER", "TUNESYNC_DB", "TUNESYNC_TEST_MODE", "TUNESYNC_ACTOR",
    "TUNESYNC_OWNER"]
  let values ← names.mapM fun name => return (name, ← IO.getEnv name)
  return { lookup := fun name => (values.lookup name).join }

def now : IO Timestamp := do
  let (handle, path) ← IO.FS.createTempFile
  handle.putStr "."
  handle.flush
  let time := (← path.metadata).modified
  IO.FS.removeFile path
  return ⟨.ofInt (time.sec * 1000 + time.nsec.toNat / 1000000)⟩

def load (path : String) : IO (Except Failure (Option Store)) := do
  match ← bytes? path with
  | none => return .ok none
  | some bytes =>
    match ((RecordLines.text? bytes).bind Json.parse?).bind Store.ofJson? with
    | some store => return .ok (some store)
    | none => return .error (.store "the file holds no library")

def save (path : String) (store : Store) : IO Unit := do
  let directory := String.ofList (path.toList.reverse.dropWhile (· != '/')).reverse
  unless directory.isEmpty do IO.FS.createDirAll directory
  IO.FS.writeFile path (store.toJson.compact ++ "\n")

def perform (invocation : Invocation) : IO (Except Failure Report) := do
  let command := invocation.command
  let context : Query.Context := ⟨← now, .ofNat (← IO.rand 1 0xffffff)⟩
  if !command.usesStore then
    return (command.run ⟨{ storePath := "", actor := "" }, context, .stable, fun _ => none⟩ none).2
  match Settings.resolve (← environment) invocation.storePath invocation.actor with
  | .error failure => return .error failure
  | .ok settings =>
    match ← load settings.storePath with
    | .error failure => return .error failure
    | .ok store? =>
      let content ← match command.file? with
        | some file => bytes? file
        | none => pure none
      let (changed, report) := command.run ⟨settings, context, .stable, fun _ => content⟩ store?
      if command.changesStore then changed.forM (save settings.storePath)
      return report

/-- Prints what a command has to say; the exit code tells whether it failed. -/
def tell (invocation : Invocation) (result : Except Failure Report) : IO UInt32 := do
  let asJson := invocation.json || !(← (← IO.getStdout).isTty)
  match result with
  | .ok report =>
    IO.print (report.printed asJson)
    return 0
  | .error failure =>
    if asJson then IO.eprintln failure.toJson.compact
    else if !invocation.quiet then failure.lines.forM fun line => IO.eprintln line
    return .ofNat failure.exitCode

def usage : String :=
  "usage: tunesync [--db PATH] [--actor NAME] [--json] [-v] [-q] [--no-color] COMMAND"

end MusicLibrary.Console

open MusicLibrary

def main (arguments : List String) : IO UInt32 := do
  match Invocation.parse? arguments with
  | none =>
    IO.eprintln Console.usage
    return 2
  | some invocation =>
    match ← (Console.perform invocation).toBaseIO with
    | .ok result => Console.tell invocation result
    | .error e => Console.tell invocation (.error (.io (toString e)))
