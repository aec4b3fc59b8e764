import MusicLibrary.Proofs.Sync.PruneSteps

/-! What a transaction does to the lists of tracks: it leaves them alone, replaces the list of one
playlist, or takes one track out of all of them. -/

namespace MusicLibrary.Store

/-- The lists of tracks behind a transaction. -/
inductive MembershipChange (store : Store) : Memberships → Prop
  | kept : MembershipChange store store.memberships
  | replaced (id : PersistentId) (trackIds : List PersistentId) :
    MembershipChange store (store.memberships.replace id.key (trackIds.map PersistentId.key))
  | erased (id : PersistentId) : MembershipChange store (store.memberships.eraseTrack id.key)

variable {store next : Store} {options : Sync.Options} {outcome : Sync.Outcome}

theorem membershipChange_of_edit {change : Edit} (h : store.edit change = .ok next) :
    store.MembershipChange next.memberships := by
  cases editStep_of_edit h with
  | trackSaved track actor => exact .kept
  | trackDeleted there => exact .erased _
  | playlistSaved old write =>
    obtain ⟨_, rfl⟩ := of_writePlaylist write
    exact .replaced _ _
  | playlistDeleted remove =>
    obtain ⟨_, _, rfl⟩ := of_removePlaylist remove
    exact .replaced _ []
  | tracksKept row same => exact .kept
  | tracksRemoved row fewer => exact .replaced _ _

theorem memberships_of_syncTrack {record : TrackRecord}
    (h : Sync.syncTrack options store record = .ok (next, outcome)) :
    next.memberships = store.memberships := by
  cases Sync.trackStep_of_syncTrack h <;> rfl

theorem membershipChange_of_syncPlaylist {record : PlaylistRecord}
    (h : Sync.syncPlaylist options store record = .ok (next, outcome)) :
    store.MembershipChange next.memberships := by
  cases Sync.playlistStep_of_syncPlaylist h with
  | nameless name => exact .kept
  | system name refused => exact .kept
  | known name seen => exact .kept
  | gone name differs absent => exact .kept
  | otherShape name differs row base refused => exact .kept
  | settled name differs row base update nothing => exact .kept
  | created name fresh write =>
    obtain ⟨_, rfl⟩ := of_writePlaylist write
    exact .replaced _ _
  | merged name differs row base update something write =>
    obtain ⟨_, rfl⟩ := of_writePlaylist write
    obtain ⟨audit, recorded⟩ := Sync.recordPlaylistChange_eq ..
    rw [recorded]
    exact .replaced _ _

theorem membershipChange_pruneTrack (options : Sync.Options) (store : Store) (key : String) :
    store.MembershipChange (Sync.pruneTrack options store key).1.memberships := by
  cases pruned : Sync.pruneTrack options store key with
  | mk next id? =>
    cases Sync.trackPruning_of_pruneTrack pruned with
    | illegible parsed => exact .kept
    | absent parsed absent => exact .erased _
    | removed parsed there => exact .erased _

theorem membershipChange_of_prunePlaylist {key : String} {id? : Option PersistentId}
    (h : Sync.prunePlaylist? options store key = some (next, id?)) :
    store.MembershipChange next.memberships := by
  cases Sync.playlistPruning_of_prunePlaylist h with
  | illegible parsed => exact .kept
  | absent parsed absent => exact .kept
  | removed parsed remove =>
    obtain ⟨_, _, rfl⟩ := of_removePlaylist remove
    exact .replaced _ []

/-- Every transaction changes the lists of tracks in one of these ways. -/
theorem membershipChange_commit (store : Store) (t : Transaction) :
    store.MembershipChange (store.commit t).memberships := by
  cases attempt : store.attempt t with
  | error failure =>
    rw [commit_of_error attempt]
    exact .kept
  | ok next =>
    rw [commit_of_ok attempt]
    cases t with
    | edit change => exact membershipChange_of_edit attempt
    | sync options record =>
      obtain ⟨outcome, step⟩ := syncRecord_of_attempt attempt
      cases record with
      | track record =>
        rw [memberships_of_syncTrack step]
        exact .kept
      | playlist record => exact membershipChange_of_syncPlaylist step
    | pruneTrack options key =>
      obtain rfl := Except.ok.inj attempt
      exact membershipChange_pruneTrack options store key
    | prunePlaylist options key =>
      obtain ⟨id?, prune⟩ := prunePlaylist_of_attempt attempt
      exact membershipChange_of_prunePlaylist prune

end MusicLibrary.Store
