import MusicLibrary.Playlist.Basic
import MusicLibrary.Record.Playlist
import MusicLibrary.Smart.Stored

/-! Playlists from the records of a library file. -/

namespace MusicLibrary.Playlist

/-- The kind for a distinguished kind. One without a name is set off by 1000; past the largest word
the sum comes in again at the other end, where a build that checks for overflow ends the program. -/
def kindOfMark (mark : Int64) : PlaylistKind :=
  match [(2, .movies), (3, .tvShows), (4, .music), (5, .audiobooks), (10, .podcasts),
      (19, .purchased), (65, .downloadedMusic), (66, .downloadedMovies),
      (67, .downloadedTvShows)].lookup mark with
  | some kind => kind
  | none => .other (1000 + mark)

/-- The smart definition of a record. One that cannot be read, or that has no rules, does not
count. -/
def smartOf (record : PlaylistRecord) : Option Smart :=
  if record.isSmart then
    match Smart.decodeTexts (record.smartInfo.getD "") (record.smartCriteria.getD "") with
    | .ok smart => if smart.ruleset.rules.isEmpty then none else some smart
    | .error _ => none
  else none

/-- The kind of a record, by the first of its marks that decides. -/
def kindOf (record : PlaylistRecord) : PlaylistKind :=
  let flag := fun (value : Option Bool) => value.getD false
  if flag record.master then .master
  else if flag record.music then .music
  else if flag record.movies then .movies
  else if flag record.tvShows then .tvShows
  else if flag record.podcasts then .podcasts
  else if flag record.purchasedMusic then .purchasedMusic
  else if flag record.audiobooks then .audiobooks
  else match record.distinguishedKind with
    | some mark => kindOfMark mark
    | none =>
      if record.isFolder then .folder
      else if record.geniusTrackId.isSome then .genius
      else if (smartOf record).isSome then .smart
      else .standard

def ofRecord (id : PersistentId) (record : PlaylistRecord) : Playlist where
  id := id
  parentId := record.parentPersistentId
  kind := kindOf record
  folder := record.isFolder
  name := record.name.getD ""
  dateAdded := record.dateAdded
  dateModified := record.dateModified
  smart := smartOf record
  geniusTrackId := record.geniusTrackId
  trackIds := if record.isFolder || (smartOf record).isSome then [] else record.trackIds

end MusicLibrary.Playlist
