import MusicLibrary.Json.Printer
import MusicLibrary.Store.Basic
import MusicLibrary.Text.Base64
import MusicLibrary.Track.Json

/-! A store as a JSON document, so that it can be kept in a file. -/

namespace MusicLibrary

namespace StoredRules

def toJson : StoredRules → Json
  | .absent => .null
  | .binary bytes => .object [("base64", .text (String.ofList (Text.Base64.encode bytes)))]
  | .text s => .object [("text", .text s)]
  | .number n => .object [("number", .ofInt64 n)]

def ofJson? : Json → Option StoredRules
  | .null => some .absent
  | .object [("base64", .text s)] => (Text.Base64.decode s.toList).map .binary
  | .object [("text", .text s)] => some (.text s)
  | .object [("number", j)] => j.int64?.map .number
  | _ => none

end StoredRules

namespace PlaylistRow

def fieldLabels : List String :=
  ["id", "parent_id", "kind", "folder", "name", "date_added", "date_modified", "rules",
    "genius_track_id"]

def toJson (row : PlaylistRow) : Json :=
  .ofMembers [some ("id", row.id.toJson),
    Json.member "parent_id" PersistentId.toJson row.parentId,
    some ("kind", row.kind.toJson), some ("folder", .boolean row.folder),
    some ("name", .text row.name), Json.member "date_added" Timestamp.toJson row.dateAdded,
    Json.member "date_modified" Timestamp.toJson row.dateModified,
    some ("rules", row.rules.toJson),
    Json.member "genius_track_id" PersistentId.toJson row.geniusTrackId]

def ofJson? (j : Json) : Option PlaylistRow := do
  let fields ← j.fields? fieldLabels
  return ⟨← fields.required "id" PersistentId.ofJson?,
    ← fields.optional "parent_id" PersistentId.ofJson?,
    ← fields.required "kind" PlaylistKind.ofJson?, ← fields.required "folder" Json.boolean?,
    ← fields.required "name" Json.text?, ← fields.optional "date_added" Timestamp.ofJson?,
    ← fields.optional "date_modified" Timestamp.ofJson?,
    ← fields.required "rules" StoredRules.ofJson?,
    ← fields.optional "genius_track_id" PersistentId.ofJson?⟩

end PlaylistRow

namespace Snapshot

def toJson (snapshot : Snapshot) : Json :=
  .ofMembers [some ("kind", .text snapshot.key.kind.label),
    Json.member "owner" Json.ofInt64 snapshot.key.owner, some ("id", .text snapshot.key.id),
    some ("data", .text snapshot.data)]

def ofJson? (j : Json) : Option Snapshot := do
  let fields ← j.fields? ["kind", "owner", "id", "data"]
  let kind ← EntityKind.ofLabel? (← fields.required "kind" Json.text?)
  return ⟨⟨kind, ← fields.optional "owner" Json.int64?, ← fields.required "id" Json.text?⟩,
    ← fields.required "data" Json.text?⟩

end Snapshot

namespace AuditEntry

def toJson (entry : AuditEntry) : Json :=
  .ofMembers [some ("entity", .text entry.entity), some ("entity_id", .text entry.entityId),
    some ("kind", .text entry.kind), some ("actor", .text entry.actor),
    Json.member "old" Json.text entry.old, Json.member "new" Json.text entry.new,
    Json.member "comment" Json.text entry.comment, some ("time", .ofInt64 entry.time)]

def ofJson? (j : Json) : Option AuditEntry := do
  let fields ← j.fields? ["entity", "entity_id", "kind", "actor", "old", "new", "comment", "time"]
  return ⟨← fields.required "entity" Json.text?, ← fields.required "entity_id" Json.text?,
    ← fields.required "kind" Json.text?, ← fields.required "actor" Json.text?,
    ← fields.optional "old" Json.text?, ← fields.optional "new" Json.text?,
    ← fields.optional "comment" Json.text?, ← fields.required "time" Json.int64?⟩

end AuditEntry

/-- A table with the given rows; of rows with one key the first counts. -/
def Table.ofRows {α κ : Type} [Keyed α κ] [Ord κ] [Std.TransOrd κ] [Std.LawfulEqOrd κ]
    (rows : List α) : Table α := rows.foldr (fun row table => table.put row) .empty

namespace Store

def listJson (store : Store) (row : PlaylistRow) : Json :=
  .array [.ofInt64 row.id.key,
    .array ((store.memberships.tracks row.id.key).map Json.ofInt64)]

def listOfJson? : Json → Option (Key × List Key)
  | .array [playlist, tracks] => do return (← playlist.int64?, ← tracks.list? Json.int64?)
  | _ => none

def toJson (store : Store) : Json :=
  .object [("tracks", .array (store.tracks.rows.map Track.toJson)),
    ("playlists", .array (store.playlists.rows.map PlaylistRow.toJson)),
    ("lists", .array (store.playlists.rows.map store.listJson)),
    ("snapshots", .array (store.snapshots.rows.map Snapshot.toJson)),
    ("audit", .array (store.audit.map AuditEntry.toJson))]

def ofJson? (j : Json) : Option Store := do
  let fields ← j.fields? ["tracks", "playlists", "lists", "snapshots", "audit"]
  let tracks ← fields.required "tracks" (Json.list? Track.ofJson?)
  let playlists ← fields.required "playlists" (Json.list? PlaylistRow.ofJson?)
  let lists ← fields.required "lists" (Json.list? listOfJson?)
  let snapshots ← fields.required "snapshots" (Json.list? Snapshot.ofJson?)
  let audit ← fields.required "audit" (Json.list? AuditEntry.ofJson?)
  return { tracks := .ofRows tracks, playlists := .ofRows playlists,
           memberships := lists.foldl (fun m list => m.replace list.1 list.2) .empty,
           snapshots := .ofRows snapshots, audit }

end Store

end MusicLibrary
