import MusicLibrary.Change.Event
import MusicLibrary.Json.Printer
import MusicLibrary.Playlist.Basic
import MusicLibrary.Query.Basic
import MusicLibrary.Smart.Json
import MusicLibrary.Sync.Outcome
import MusicLibrary.Track.Json

/-! What commands print: a JSON value for programs, or lines of text for people. -/

namespace MusicLibrary

structure Report where
  json : Json
  lines : List String

namespace Report

def printed (report : Report) (asJson : Bool) : String :=
  if asJson then report.json.compact ++ "\n"
  else String.join (report.lines.map (· ++ "\n"))

/-- A value behind its label, which is filled up to a width. -/
def labelled (width : Nat) (label value : String) : String :=
  "  " ++ String.ofList (label.toList.rightpad width ' ') ++ " " ++ value

/-- A line for a value that is set. -/
def labelled? (width : Nat) (label : String) (write : α → String) (value : Option α) :
    Option String := value.map fun v => labelled width label (write v)

/-! Tracks. -/

def trackLine (track : Track) : String :=
  track.id.hex ++ "  " ++ track.displayName ++
    ((track.artist.map (" - " ++ ·)).getD "") ++
    ((track.album.map fun album => " (" ++ album ++ ")").getD "")

def ofTrack (track : Track) : Report where
  json := track.toJson
  lines :=
    let text := fun label => labelled? 12 label (id : String → String)
    let number := fun label => labelled? 12 label (fun n : Int64 => toString n.toInt)
    let date := fun label => labelled? 12 label Timestamp.display
    [track.displayName, labelled 12 "id" track.id.hex] ++ List.filterMap id [
      text "artist" track.artist, text "album" track.album, text "genre" track.genre,
      text "location" track.location,
      number "year" track.year, number "rating" track.rating, number "plays" track.playCount,
      number "skips" track.skipCount, number "time (ms)" track.totalTime,
      labelled? 12 "media kind" MediaKind.display track.mediaKind,
      date "added" track.dateAdded, date "modified" track.dateModified,
      date "played" track.playDate]

def numbered (number : Nat) (line : String) : String :=
  String.ofList ((toString number).toList.leftpad 4 ' ') ++ ". " ++ line

def ofTracks (playlist : PersistentId) (tracks : List Track) : Report where
  json := .object [("playlist", playlist.toJson), ("count", .ofNat tracks.length),
    ("tracks", .array (tracks.map Track.toJson))]
  lines :=
    if tracks.isEmpty then ["No tracks."]
    else tracks.mapIdx fun i track => numbered (i + 1) (trackLine track)

/-! Playlists. -/

def ofPlaylist (playlist : Playlist) (context : Query.Context) : Report where
  json := playlist.toJson
  lines :=
    let content := match playlist.smart with
      | some smart =>
        let query := Query.ofSmart smart context
        labelled 10 "rules" (Query.Fragment.sql query.condition.fragments) ::
          query.warnings.map (labelled 10 "warning")
      | none =>
        if playlist.folder then [] else [labelled 10 "tracks" (toString playlist.trackIds.length)]
    [playlist.name ++ " [" ++ playlist.kind.display ++ "]", labelled 10 "id" playlist.id.hex] ++
      List.filterMap id [labelled? 10 "parent" PersistentId.hex playlist.parentId,
        labelled? 10 "added" Timestamp.display playlist.dateAdded] ++ content

def playlistLine (playlist : Playlist) : String :=
  playlist.id.hex ++ "  " ++ playlist.name ++ (if playlist.folder then "/" else "") ++ " [" ++
    playlist.kind.display ++ "]"

def ofChildren (parent : Option PersistentId) (playlists : List Playlist) : Report where
  json := .object [("parent", (parent.map PersistentId.toJson).getD .null),
    ("count", .ofNat playlists.length), ("playlists", .array (playlists.map Playlist.toJson))]
  lines := if playlists.isEmpty then ["No playlists."] else playlists.map playlistLine

def ofDeletion (id : PersistentId) : Report where
  json := .object [("id", id.toJson), ("deleted", .boolean true)]
  lines := ["Deleted playlist: " ++ id.hex]

def ofRemoval (id : PersistentId) (removed : Nat) : Report where
  json := .object [("id", id.toJson), ("removed", .ofNat removed)]
  lines := ["Removed " ++ toString removed ++ " entries from playlist " ++ id.hex]

/-! Smart playlists. -/

def ofSmart (smart : Smart) : Report where
  json := smart.toJson
  lines := [smart.toJson.indented]

def ofQuery (query : Query) : Report where
  json := .ofMembers [some ("sql", .text query.sql),
    some ("params", .array (query.parameters.map Query.Value.toJson)),
    Json.member "max_size" (Json.ofNat ·.toNat) query.maxSize,
    Json.member "max_time" (Json.ofNat ·.toNat) query.maxTime,
    if query.warnings.isEmpty then none
    else some ("warnings", .array (query.warnings.map Json.text))]
  lines :=
    let parameters := query.parameters.map (·.toJson.compact)
    [query.sql] ++
      (if parameters.isEmpty then [] else ["-- params: " ++ ", ".intercalate parameters]) ++
      (query.maxSize.map fun n => "-- truncate at " ++ toString n.toNat ++ " bytes").toList ++
      (query.maxTime.map fun n => "-- truncate at " ++ toString n.toNat ++ " ms").toList ++
      query.warnings.map ("-- warning: " ++ ·)

/-! The store as a whole. -/

def ofStore (path : String) (created : Bool) (tracks playlists : Nat) : Report where
  json := .object [("database", .text path), ("created", .boolean created),
    ("tracks", .ofNat tracks), ("playlists", .ofNat playlists)]
  lines :=
    if created then
      ["Initialized tunesync database", "  Database: " ++ path, "",
        "Next: run 'tunesync sync <library.jsonl>' to import a library."]
    else
      ["Database already initialized: " ++ path,
        "  " ++ toString tracks ++ " tracks, " ++ toString playlists ++ " playlists"]

def statsLine (label : String) (stats : Sync.EntityStats) : String :=
  labelled 10 label (", ".intercalate [toString stats.created ++ " created",
    toString stats.updated ++ " updated", toString stats.unchanged ++ " unchanged",
    toString stats.skipped ++ " skipped", toString stats.deleted ++ " deleted"])

/-- How many entries were changed in each way, by the events that told of it. -/
def eventCounts (events : List ChangeEvent) : Json :=
  let count := fun change => Json.ofNat (events.countP (·.change = change))
  .object [("created", count .created), ("changed", count .changed), ("deleted", count .deleted),
    ("dropped", .ofNat 0)]

def ofSync (file : String) (stats : Sync.Stats) (events : List ChangeEvent) : Report where
  json := .object [("file", .text file), ("stats", stats.toJson), ("events", eventCounts events)]
  lines :=
    [(if stats.aborted then "Sync aborted early: " else "Sync complete: ") ++ file, "",
      statsLine "Tracks" stats.tracks, statsLine "Playlists" stats.playlists] ++
    if stats.playlists.conflicts = 0 then []
    else ["  " ++ toString stats.playlists.conflicts ++
      " playlist order conflicts resolved in favour of the library file"]

def ofVersion : Report where
  json := .object [("version", .text "0.1.0"), ("build", .text "dev")]
  lines := ["tunesync 0.1.0 (dev)"]

end Report

end MusicLibrary
