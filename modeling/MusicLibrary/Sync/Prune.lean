import MusicLibrary.Sync.Options

/-! Pruning: after a complete stream, the entries that it does not mention are removed. Only what
the owner has seen before is pruned, and a folder stays as long as anything lies in it. -/

namespace MusicLibrary.Sync

def staleIds (options : Options) (store : Store) (kind : EntityKind) (seen : List String) :
    List String := (store.knownIds kind options.owner).filter (! seen.contains ·)

/-- Forgets a track and removes it, also from the playlists that list it; tells its id if it was
in the library. -/
def pruneTrack (options : Options) (store : Store) (key : String) : Store × Option PersistentId :=
  let forgotten := store.eraseSnapshot .track options.owner key
  match PersistentId.parse? key with
  | none => (forgotten, none)
  | some id =>
    let removed := forgotten.eraseTrack id
    if store.hasTrack id then
      (removed.record options.actor "prune_track" .trackDeleted key none none, some id)
    else (removed, none)

/-- Prunes tracks one after the other; also tells which ones were there. -/
def pruneTracks (options : Options) (store : Store) : List String → Store × List PersistentId
  | [] => (store, [])
  | key :: rest =>
    let (store, id?) := pruneTrack options store key
    let (store, ids) := pruneTracks options store rest
    (store, id?.toList ++ ids)

/-- Removes a playlist if it is there, and forgets it; nothing happens while others lie in it. -/
def prunePlaylist? (options : Options) (store : Store) (key : String) :
    Option (Store × Option PersistentId) :=
  let forget := fun (store : Store) => store.eraseSnapshot .playlist options.owner key
  match PersistentId.parse? key with
  | none => some (forget store, none)
  | some id =>
    match store.removePlaylist id with
    | .error (.folderNotEmpty _) => none
    | .error _ => some (forget store, none)
    | .ok removed =>
      some (forget (removed.record options.actor "prune_playlist" .playlistDeleted key none none),
        some id)

/-- What a round of pruning leaves: the store, the playlists that were removed, and the ids that
have to wait. -/
structure PruneRound where
  store : Store
  removed : List PersistentId
  blocked : List String

def pruneRound (options : Options) (store : Store) : List String → PruneRound
  | [] => ⟨store, [], []⟩
  | key :: rest =>
    match prunePlaylist? options store key with
    | some (store, id?) =>
      let round := pruneRound options store rest
      { round with removed := id?.toList ++ round.removed }
    | none =>
      let round := pruneRound options store rest
      { round with blocked := key :: round.blocked }

/-- Prunes playlists in rounds, folders after what lies in them, until a round gets no further. -/
def prunePlaylists (options : Options) (store : Store) (pending : List String) :
    Store × List PersistentId :=
  let round := pruneRound options store pending
  if round.blocked.length < pending.length then
    let (store, ids) := prunePlaylists options round.store round.blocked
    (store, round.removed ++ ids)
  else (round.store, round.removed)
termination_by pending.length

end MusicLibrary.Sync
