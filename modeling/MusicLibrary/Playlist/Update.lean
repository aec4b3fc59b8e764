import MusicLibrary.Merge.Patch
import MusicLibrary.Playlist.Basic

/-! Merging the change of a playlist in a library file into the stored playlist. What the file has
changed is adopted, and track lists that changed on both sides are merged. -/

namespace MusicLibrary.Playlist

structure Change where
  changed : Bool := false
  /-- The playlist lies in another folder now. -/
  parentChanged : Bool := false
  /-- The track lists could not be merged, and the one of the file was taken. -/
  conflict : Bool := false
  deriving DecidableEq, Inhabited

/-! What is assigned to a field, if anything is. -/

/-- The new value, where the file has changed it and it is not stored already. -/
def adopted? [DecidableEq α] (stored old new : α) : Option α :=
  if old ≠ new ∧ stored ≠ new then some new else none

/-- The new time, where it comes before the stored one or there is none yet. -/
def earlier? (stored new : Option Timestamp) : Option (Option Timestamp) :=
  new.bind fun n => if stored.all fun s => n.ms < s.ms then some (some n) else none

/-- The tracks after the change, and whether the lists went together. -/
def mergedTrackIds (stored old new : List PersistentId) : List PersistentId × Bool :=
  if old = new then (stored, true)
  else if stored = old then (new, true)
  else Merge.threeWay old stored new

/-- The merged tracks, where they are not the stored ones. -/
def trackIds? (stored merged : List PersistentId) : Option (List PersistentId) :=
  if merged ≠ stored then some merged else none

/-- Whether the change is of another nature than the stored playlist: a folder does not become a
list, and a list does not become smart. -/
def hasOtherShape (stored new : Playlist) : Bool :=
  stored.folder != new.folder || stored.isSmart != new.isSmart

/-- The stored playlist after the change from one state of the file to another one, and what
changed. Any assignment is a change, and stamps the date of modification. A change to another shape
is refused. -/
def update? (stored old new : Playlist) (now : Timestamp) : Option (Playlist × Change) :=
  if hasOtherShape stored new then none
  else
    let smart := adopted? stored.smart old.smart new.smart
    let name := adopted? stored.name old.name new.name
    let dateAdded := earlier? stored.dateAdded new.dateAdded
    let merged := mergedTrackIds stored.trackIds old.trackIds new.trackIds
    let trackIds := trackIds? stored.trackIds merged.1
    let parentId := adopted? stored.parentId old.parentId new.parentId
    let changed := smart.isSome || name.isSome || dateAdded.isSome || trackIds.isSome ||
      parentId.isSome
    some ({ stored with
        smart := smart.getD stored.smart
        name := name.getD stored.name
        dateAdded := dateAdded.getD stored.dateAdded
        trackIds := trackIds.getD stored.trackIds
        parentId := parentId.getD stored.parentId
        dateModified := if changed then some now else stored.dateModified },
      { changed, parentChanged := parentId.isSome, conflict := !merged.2 })

end MusicLibrary.Playlist
