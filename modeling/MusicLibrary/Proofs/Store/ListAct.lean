import Mathlib.Logic.Function.Basic
import MusicLibrary.Proofs.Store.MembershipChange
import MusicLibrary.Proofs.Store.PlaylistChange

/-! Lists of tracks as a map from playlists, and what each transaction does to them there: it sets
one list, takes tracks out of one list or one track out of all of them, or leaves them as they are.
Main statement: every transaction changes the tables by just what it does to the lists. -/

namespace MusicLibrary

/-- The list of each playlist; one that is not stored has an empty list. -/
abbrev TrackLists := PersistentId → List PersistentId

/-- What is done to the lists. -/
inductive ListAct where
  | keep
  /-- A playlist is written as a whole. -/
  | write (playlist : Playlist)
  | drop (playlist : PersistentId)
  /-- A track leaves all lists. -/
  | forget (track : PersistentId)
  /-- Tracks are taken out of one list. -/
  | take (playlist : PersistentId) (tracks : List PersistentId)

namespace ListAct

/-- A plain playlist has the list that it is written with, and a folder or a smart one has none. -/
def apply (lists : TrackLists) : ListAct → TrackLists
  | keep => lists
  | write playlist => Function.update lists playlist.id
      (if playlist.folder ∨ playlist.isSmart then [] else playlist.trackIds)
  | drop playlist => Function.update lists playlist []
  | forget track => fun playlist => (lists playlist).filter (· ≠ track)
  | take playlist tracks =>
    Function.update lists playlist ((lists playlist).filter (· ∉ tracks))

/-- The ids that the lists are changed by. -/
def ids : ListAct → List PersistentId
  | keep => []
  | write playlist => playlist.id :: playlist.trackIds
  | drop playlist | take playlist _ => [playlist]
  | forget track => [track]

theorem update_congr {lists lists' : TrackLists} {id target : PersistentId}
    {tracks tracks' : List PersistentId} (same : lists id = lists' id)
    (set : id = target → tracks = tracks') :
    Function.update lists target tracks id = Function.update lists' target tracks' id := by
  by_cases own : id = target
  · rw [set own, own, Function.update_self, Function.update_self]
  · rw [Function.update_of_ne own, Function.update_of_ne own, same]

/-- What is done to a list depends on this list alone. -/
theorem apply_congr (act : ListAct) {lists lists' : TrackLists} {id : PersistentId}
    (same : lists id = lists' id) : act.apply lists id = act.apply lists' id := by
  cases act with
  | keep => exact same
  | write playlist => exact update_congr same fun _ => rfl
  | drop target => exact update_congr same fun _ => rfl
  | forget track => exact congrArg _ same
  | take target tracks =>
    apply update_congr same
    rintro rfl
    rw [same]

end ListAct

namespace Sync

/-- The playlist that synchronising a record writes: a new one as the record has it, else the stored
one with the change of the record merged into it. -/
def written? (options : Options) (store : Store) (record : PlaylistRecord) : Option Playlist := do
  let id ← record.persistentId
  match syncPlaylist options store record with
  | .ok (_, .created) => return .ofRecord id record
  | .ok (_, .updated ..) =>
    let previous ← store.snapshot? .playlist options.owner id.hex
    let (oldId, old) ← (recordOf PlaylistRecord.ofJson? (·.persistentId) previous).toOption
    let stored ← (store.playlist? id).toOption.join
    let (playlist, _) ← stored.update? (.ofRecord oldId old) (.ofRecord id record) options.now
    return playlist
  | _ => none

end Sync

namespace Store

/-- What a transaction does to the lists. One that fails leaves them as they are. -/
def listAct (store : Store) (t : Transaction) : ListAct :=
  match store.attempt t with
  | .error _ => .keep
  | .ok _ =>
    match t with
    | .edit (.saveTrack ..) => .keep
    | .edit (.deleteTrack id _) => .forget id
    | .edit (.savePlaylist playlist _) => .write playlist
    | .edit (.deletePlaylist id _) => .drop id
    | .edit (.removeTracks id tracks _) => .take id tracks
    | .sync _ (.track _) => .keep
    | .sync options (.playlist record) =>
      (Sync.written? options store record).elim .keep .write
    | .pruneTrack _ key => (PersistentId.parse? key).elim .keep .forget
    | .prunePlaylist _ key => (PersistentId.parse? key).elim .keep .drop

/-- How the tables follow what is done to the lists. -/
inductive ListStep (store : Store) : ListAct → Store → Prop
  | kept {next : Store} (playlists : next.playlists = store.playlists)
    (memberships : next.memberships = store.memberships) : ListStep store .keep next
  | written {next : Store} {playlist : Playlist}
    (playlists : next.playlists = store.playlists.put (.ofPlaylist playlist))
    (memberships : next.memberships = store.memberships.replace playlist.id.key
      (playlist.storedTrackIds.map PersistentId.key)) : ListStep store (.write playlist) next
  | dropped {next : Store} {id : PersistentId}
    (playlists : next.playlists = store.playlists.erase id.key)
    (memberships : next.memberships = store.memberships.erasePlaylist id.key) :
    ListStep store (.drop id) next
  | absent {next : Store} {id : PersistentId} (absent : store.playlists.find? id.key = none)
    (playlists : next.playlists = store.playlists)
    (memberships : next.memberships = store.memberships) : ListStep store (.drop id) next
  | forgotten {next : Store} {track : PersistentId}
    (playlists : next.playlists = store.playlists)
    (memberships : next.memberships = store.memberships.eraseTrack track.key) :
    ListStep store (.forget track) next
  | taken {next : Store} {id : PersistentId} {tracks : List PersistentId}
    (playlists : next.playlists = store.playlists)
    (memberships : next.memberships = store.memberships.replace id.key
      (((store.trackIds id).filter (· ∉ tracks)).map PersistentId.key)) :
    ListStep store (.take id tracks) next
  | nothingTaken {next : Store} {id : PersistentId} {tracks : List PersistentId}
    (whole : (store.trackIds id).filter (· ∉ tracks) = store.trackIds id)
    (playlists : next.playlists = store.playlists)
    (memberships : next.memberships = store.memberships) :
    ListStep store (.take id tracks) next

variable {store next : Store}

theorem listStep_written {playlist : Playlist} {written : Store}
    (write : store.writePlaylist playlist = .ok written)
    (playlists : next.playlists = written.playlists)
    (memberships : next.memberships = written.memberships) :
    store.ListStep (.write playlist) next := by
  obtain ⟨_, rfl⟩ := of_writePlaylist write
  exact .written playlists memberships

theorem trackIds_of_playlist? {id : PersistentId} {playlist : Playlist}
    (row : store.playlist? id = .ok (some playlist)) : playlist.trackIds = store.trackIds id := by
  obtain ⟨row, _, read⟩ := playlist?_eq_some.1 row
  obtain ⟨smart, _, rfl⟩ := Option.map_eq_some_iff.1 read
  rfl

theorem filter_not_contains (ids tracks : List PersistentId) :
    ids.filter (! tracks.contains ·) = ids.filter (· ∉ tracks) := by
  refine List.filter_congr fun id _ => ?_
  simp

theorem listStep_of_edit {change : Edit} (h : store.edit change = .ok next) :
    store.ListStep (store.listAct (.edit change)) next := by
  have attempt : store.attempt (.edit change) = .ok next := h
  simp only [listAct, attempt]
  cases editStep_of_edit h with
  | trackSaved => exact .kept rfl rfl
  | trackDeleted => exact .forgotten rfl rfl
  | playlistSaved old write => exact listStep_written write rfl rfl
  | playlistDeleted remove =>
    obtain ⟨_, _, rfl⟩ := of_removePlaylist remove
    exact .dropped rfl rfl
  | @tracksKept id tracks actor playlist row same =>
    refine .nothingTaken ?_ rfl rfl
    rw [filter_not_contains, trackIds_of_playlist? row] at same
    have shorter := List.length_filter_le (fun track => decide (track ∉ tracks)) (store.trackIds id)
    exact List.filter_sublist.eq_of_length (by omega)
  | tracksRemoved row fewer =>
    rw [filter_not_contains, trackIds_of_playlist? row]
    exact .taken rfl rfl

theorem listStep_of_syncPlaylist {options : Sync.Options} {record : PlaylistRecord}
    {outcome : Sync.Outcome} (h : Sync.syncPlaylist options store record = .ok (next, outcome)) :
    store.ListStep ((Sync.written? options store record).elim .keep .write) next := by
  have step := Sync.playlistStep_of_syncPlaylist h
  cases step with
  | nameless name =>
    simp only [Sync.written?, name]
    exact .kept rfl rfl
  | system name | known name | gone name | otherShape name | settled name =>
    simp only [Sync.written?, name, h, Option.bind_eq_bind, Option.bind_some]
    exact .kept rfl rfl
  | created name fresh write =>
    simp only [Sync.written?, name, h, Option.bind_eq_bind, Option.bind_some]
    exact listStep_written write rfl rfl
  | merged name differs row base update something write =>
    simp only [Sync.written?, name, h, differs.seen, base, row, update, Option.bind_eq_bind,
      Option.bind_some, Except.toOption, Option.join_some]
    obtain ⟨audit, recorded⟩ := Sync.recordPlaylistChange_eq ..
    rw [recorded]
    exact listStep_written write rfl rfl

theorem listStep_pruneTrack (options : Sync.Options) (store : Store) (key : String) :
    store.ListStep ((PersistentId.parse? key).elim .keep .forget)
      (Sync.pruneTrack options store key).1 := by
  generalize pruned : Sync.pruneTrack options store key = result
  obtain ⟨next, id?⟩ := result
  cases Sync.trackPruning_of_pruneTrack pruned with
  | illegible parsed =>
    rw [parsed]
    exact .kept rfl rfl
  | absent parsed absent =>
    rw [parsed]
    exact .forgotten rfl rfl
  | removed parsed there =>
    rw [parsed]
    exact .forgotten rfl rfl

theorem listStep_of_prunePlaylist {options : Sync.Options} {key : String}
    {id? : Option PersistentId} (h : Sync.prunePlaylist? options store key = some (next, id?)) :
    store.ListStep ((PersistentId.parse? key).elim .keep .drop) next := by
  cases Sync.playlistPruning_of_prunePlaylist h with
  | illegible parsed =>
    rw [parsed]
    exact .kept rfl rfl
  | absent parsed absent =>
    rw [parsed]
    exact .absent absent rfl rfl
  | removed parsed remove =>
    obtain ⟨_, _, rfl⟩ := of_removePlaylist remove
    rw [parsed]
    exact .dropped rfl rfl

/-- Every transaction changes the tables by what it does to the lists. -/
theorem listStep_commit (store : Store) (t : Transaction) :
    store.ListStep (store.listAct t) (store.commit t) := by
  cases attempt : store.attempt t with
  | error failure =>
    rw [commit_of_error attempt]
    simp only [listAct, attempt]
    exact .kept rfl rfl
  | ok next =>
    rw [commit_of_ok attempt]
    cases t with
    | edit change => exact listStep_of_edit attempt
    | sync options record =>
      obtain ⟨outcome, step⟩ := syncRecord_of_attempt attempt
      cases record with
      | track record =>
        simp only [listAct, attempt]
        exact .kept (playlists_of_syncTrack step) (memberships_of_syncTrack step)
      | playlist record =>
        simp only [listAct, attempt]
        exact listStep_of_syncPlaylist step
    | pruneTrack options key =>
      simp only [listAct, attempt]
      obtain rfl := Except.ok.inj attempt
      exact listStep_pruneTrack options store key
    | prunePlaylist options key =>
      obtain ⟨id?, prune⟩ := prunePlaylist_of_attempt attempt
      simp only [listAct, attempt]
      exact listStep_of_prunePlaylist prune

end Store

end MusicLibrary
