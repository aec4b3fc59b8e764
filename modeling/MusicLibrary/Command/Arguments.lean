/-! The arguments of a command line. A command is named by one word or by two; options may stand
anywhere up to a double dash, and each one counts once at each level of the command, but for the
one that may be repeated. -/

namespace MusicLibrary

inductive Command where
  | init (force : Bool)
  | sync (file : String) (includeSystem : Bool)
  | showTrack (id : String)
  | showPlaylist (id : String)
  | listTracks (id : String)
  | listChildren (id : Option String)
  | deletePlaylist (id : String)
  | removeTracks (id : String) (tracks : List String)
  | decodeSmart (info criteria : String)
  | smartQuery (info criteria : String)
  | version
  deriving DecidableEq

/-- A command with the options that every command has. -/
structure Invocation where
  command : Command
  json : Bool := false
  verbose : Nat := 0
  quiet : Bool := false
  plain : Bool := false
  storePath : Option String := none
  actor : Option String := none
  deriving DecidableEq

namespace Command

inductive Level where
  | root | track | playlist | smart
  | init | sync | showTrack | showPlaylist | listTracks | listChildren | deletePlaylist
  | removeTracks | decodeSmart | smartQuery | version
  deriving DecidableEq

def Level.words : Level → List (String × Level)
  | .root => [("init", .init), ("sync", .sync), ("track", .track), ("playlist", .playlist),
      ("smart", .smart), ("version", .version)]
  | .track => [("show", .showTrack)]
  | .playlist => [("show", .showPlaylist), ("tracks", .listTracks), ("children", .listChildren),
      ("delete", .deletePlaylist), ("remove-tracks", .removeTracks)]
  | .smart => [("decode", .decodeSmart), ("sql", .smartQuery)]
  | _ => []

inductive Switch where
  | json | verbose | quiet | plain | force | includeSystem
  deriving DecidableEq

def Switch.ofName? (level : Level) (name : String) : Option Switch :=
  match name with
  | "--json" => some .json
  | "--verbose" => some .verbose
  | "--quiet" => some .quiet
  | "--no-color" => some .plain
  | "--force" => if level = .init then some .force else none
  | "--include-system" => if level = .sync then some .includeSystem else none
  | _ => none

def Switch.ofLetter? : Char → Option Switch
  | 'v' => some .verbose
  | 'q' => some .quiet
  | _ => none

inductive Setting where
  | storePath | actor
  deriving DecidableEq

def Setting.ofName? : String → Option Setting
  | "--db" => some .storePath
  | "--actor" => some .actor
  | _ => none

structure Reading where
  level : Level := .root
  switches : List Switch := []
  settings : List Setting := []
  operands : List String := []
  json : Bool := false
  verbose : Nat := 0
  quiet : Bool := false
  plain : Bool := false
  storePath : Option String := none
  actor : Option String := none

namespace Reading

def descend (reading : Reading) (level : Level) : Reading :=
  { reading with level, switches := [], settings := [], operands := [] }

def switchOn (reading : Reading) (switch : Switch) : Option Reading :=
  if switch = .verbose then some { reading with verbose := reading.verbose + 1 }
  else if reading.switches.contains switch then none
  else
    let taken := { reading with switches := switch :: reading.switches }
    some (match switch with
      | .json => { taken with json := true }
      | .quiet => { taken with quiet := true }
      | .plain => { taken with plain := true }
      | _ => taken)

def set (reading : Reading) (setting : Setting) (value : String) : Option Reading :=
  if reading.settings.contains setting then none
  else
    let taken := { reading with settings := setting :: reading.settings }
    match setting with
    | .storePath => if value.isEmpty then none else some { taken with storePath := some value }
    | .actor => some { taken with actor := some value }

def takeJoined (reading : Reading) (argument : String) : Option Reading :=
  let cs := argument.toList
  match cs.dropWhile (· != '=') with
  | '=' :: value => do
    let setting ← Setting.ofName? (String.ofList (cs.takeWhile (· != '=')))
    reading.set setting (String.ofList value)
  | _ => none

/-- Takes an argument of the command itself in; only a command that is fully named has any. -/
def takeOperand (reading : Reading) (argument : String) : Option Reading :=
  if reading.level.words.isEmpty then
    some { reading with operands := reading.operands ++ [argument] }
  else none

def isOption (argument : String) : Bool := argument.startsWith "-" && argument != "-"

def takeOne (reading : Reading) (argument : String) : Option Reading :=
  match reading.level.words.lookup argument with
  | some level => some (reading.descend level)
  | none =>
    match Switch.ofName? reading.level argument with
    | some switch => reading.switchOn switch
    | none =>
      if argument.startsWith "--" then reading.takeJoined argument
      else if isOption argument then
        (argument.toList.drop 1).foldlM
          (fun reading letter => (Switch.ofLetter? letter).bind reading.switchOn) reading
      else reading.takeOperand argument

/-- Takes all arguments in. Behind a double dash there are no options, and no names of
commands. -/
def takeAll (reading : Reading) : List String → Option Reading
  | [] => some reading
  | argument :: rest =>
    if argument = "--" then some { reading with operands := reading.operands ++ rest }
    else match Setting.ofName? argument, rest with
      | some setting, value :: rest =>
        if isOption value then none else (reading.set setting value).bind (·.takeAll rest)
      | some _, [] => none
      | none, rest => (reading.takeOne argument).bind (·.takeAll rest)

/-- The command of what was read, if it has the arguments it needs. -/
def command? (reading : Reading) : Option Command :=
  match reading.level, reading.operands with
  | .init, [] => some (.init (reading.switches.contains .force))
  | .sync, [file] =>
    if file.isEmpty then none else some (.sync file (reading.switches.contains .includeSystem))
  | .showTrack, [id] => some (.showTrack id)
  | .showPlaylist, [id] => some (.showPlaylist id)
  | .listTracks, [id] => some (.listTracks id)
  | .listChildren, [] => some (.listChildren none)
  | .listChildren, [id] => some (.listChildren (some id))
  | .deletePlaylist, [id] => some (.deletePlaylist id)
  | .removeTracks, id :: track :: tracks => some (.removeTracks id (track :: tracks))
  | .decodeSmart, [info, criteria] => some (.decodeSmart info criteria)
  | .smartQuery, [info, criteria] => some (.smartQuery info criteria)
  | .version, [] => some .version
  | _, _ => none

end Reading

end Command

def Invocation.parse? (arguments : List String) : Option Invocation := do
  let reading ← Command.Reading.takeAll {} arguments
  let command ← reading.command?
  return ⟨command, reading.json, reading.verbose, reading.quiet, reading.plain,
    reading.storePath, reading.actor⟩

example : (Invocation.parse? ["playlist", "--json", "children"]).map (·.command) =
    some (.listChildren none) := by cbv

example : Invocation.parse? ["--json", "--json", "version"] = none := by cbv

end MusicLibrary
