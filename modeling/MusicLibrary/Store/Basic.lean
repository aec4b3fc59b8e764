import MusicLibrary.Failure
import MusicLibrary.Membership
import MusicLibrary.Query.Evaluate
import MusicLibrary.Store.Audit
import MusicLibrary.Store.PlaylistRow
import MusicLibrary.Store.Snapshot

/-! The store of a library: its tracks, its playlists and their tracks, the snapshots of what was
synchronised, and the audit trail. A change yields a new store, so that one that fails leaves the
old store as it was. -/

namespace MusicLibrary

instance : Keyed Track Key := ⟨fun track => track.id.key⟩

structure Store where
  tracks : Table Track := .empty
  playlists : Table PlaylistRow := .empty
  memberships : Memberships := .empty
  snapshots : Table Snapshot := .empty
  audit : Audit := []

namespace Store

def empty : Store := {}

/-! Reading. -/

def track? (store : Store) (id : PersistentId) : Option Track := store.tracks.find? id.key

def trackIds (store : Store) (id : PersistentId) : List PersistentId :=
  (store.memberships.tracks id.key).map PersistentId.ofKey

def unreadable : Failure := .store "the rules of a playlist cannot be read"

def unanswerable : Failure := .store "the query is too large"

def told (failure : Failure) : Option α → Except Failure α
  | some value => .ok value
  | none => .error failure

theorem told_eq_ok_iff {failure : Failure} {option : Option α} {value : α} :
    told failure option = .ok value ↔ option = some value := by
  cases option <;> simp [told]

def playlist? (store : Store) (id : PersistentId) : Except Failure (Option Playlist) :=
  match store.playlists.find? id.key with
  | none => .ok none
  | some row => (told unreadable (row.playlist? (store.trackIds id))).map some

/-- The playlists in a folder, or at the top level, without their tracks. Tied ones stay in the
order of their keys. -/
def children (store : Store) (parent : Option PersistentId) : Except Failure (List Playlist) :=
  let rows := store.playlists.rows.filter fun row =>
    row.parentId.map PersistentId.key = parent.map PersistentId.key
  told unreadable ((rows.mergeSort PlaylistRow.listedBefore).mapM (·.playlist? []))

def library (store : Store) : Library := ⟨store.tracks.rows, store.memberships.rows⟩

def smartTracks (store : Store) (plan : Query.Plan) (smart : Smart) (context : Query.Context) :
    Except Failure (List Track) := told unanswerable (smart.tracks? plan store.library context)

/-- The tracks of a playlist, in order; those that are not in the library are left out. -/
def tracksOf (store : Store) (plan : Query.Plan) (id : PersistentId) (context : Query.Context) :
    Except Failure (List Track) := do
  match ← store.playlist? id with
  | none => .error (.playlistNotFound id.hex)
  | some playlist =>
    match playlist.smart with
    | some smart => store.smartTracks plan smart context
    | none => .ok ((store.memberships.tracks id.key).filterMap store.tracks.find?)

/-- The record that an owner last saw of an entry, in JSON. -/
def snapshot? (store : Store) (kind : EntityKind) (owner : Option Int64) (id : String) :
    Option String := (store.snapshots.find? ⟨kind, owner, id⟩).map (·.data)

def knownIds (store : Store) (kind : EntityKind) (owner : Option Int64) : List String :=
  store.snapshots.knownIds kind owner

/-! Writing. -/

def writeTrack (store : Store) (track : Track) : Store :=
  { store with tracks := store.tracks.put { track with id := track.id.stored } }

def hasTrack (store : Store) (id : PersistentId) : Bool := store.tracks.contains id.key

/-- The store without a track, which also leaves every playlist. A playlist may list a track that
is not in the library, so even then something may be left out. -/
def eraseTrack (store : Store) (id : PersistentId) : Store :=
  { store with
    tracks := store.tracks.erase id.key
    memberships := store.memberships.eraseTrack id.key }

def removeTrack (store : Store) (id : PersistentId) : Except Failure Store :=
  if store.hasTrack id then .ok (store.eraseTrack id) else .error (.trackNotFound id.hex)

def writeTrackIds (store : Store) (id : PersistentId) (trackIds : List PersistentId) : Store :=
  { store with memberships := store.memberships.replace id.key (trackIds.map PersistentId.key) }

/-- Whether playlists lie in a folder. -/
def hasChildren (store : Store) (id : PersistentId) : Bool :=
  store.playlists.rows.any fun row => row.parentId.map PersistentId.key = some id.key

/-- The store without a playlist, in which no other one may lie. -/
def removePlaylist (store : Store) (id : PersistentId) : Except Failure Store :=
  if store.hasChildren id then .error (.folderNotEmpty id.hex)
  else if store.playlists.contains id.key then
    .ok { store with
      playlists := store.playlists.erase id.key
      memberships := store.memberships.erasePlaylist id.key }
  else .error (.playlistNotFound id.hex)

def putSnapshot (store : Store) (kind : EntityKind) (owner : Option Int64) (id data : String) :
    Store := { store with snapshots := store.snapshots.put ⟨⟨kind, owner, id⟩, data⟩ }

def eraseSnapshot (store : Store) (kind : EntityKind) (owner : Option Int64) (id : String) :
    Store := { store with snapshots := store.snapshots.erase ⟨kind, owner, id⟩ }

/-- The store with one more line in the audit trail; the time is that of the trail itself, which
moves on by one with every line. -/
def record (store : Store) (actor operation : String) (kind : AuditKind) (entityId : String)
    (old new : Option String) : Store :=
  { store with
    audit := store.audit ++ [⟨kind.entity.label, entityId, kind.label, actor, old, new,
      some operation, .ofNat store.audit.length⟩] }

end Store

end MusicLibrary
