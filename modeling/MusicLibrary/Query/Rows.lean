import MusicLibrary.Membership
import MusicLibrary.Query.Basic

/-! The rows that a query runs over: every track joined with its playlists, in all ways. A query
selects the tracks of the rows that satisfy its condition, and each of them once. -/

namespace MusicLibrary

/-- The tracks that a query runs over, in the order of their keys, and their places in
playlists. -/
structure Library where
  tracks : List Track
  memberships : List Membership

namespace Query

open Predicate

/-- The playlists that a join finds for a track; if there are none it finds nothing once. -/
def found (library : Library) (track : Track) (playlist : Option Key) : List (Option Key) :=
  let matching := library.memberships.filter fun m =>
    m.track == track.id.key && playlist.all (m.playlist == ·)
  if matching.isEmpty then [none] else matching.map fun m => some m.playlist

def choices : List (List α) → List (List α)
  | [] => [[]]
  | items :: rest => items.flatMap fun item => (choices rest).map (item :: ·)

def rows (library : Library) (joins : List (Option Key)) (track : Track) : List Row :=
  (choices (joins.map (found library track))).map (Row.mk track)

def selected (query : Query) (library : Library) : List Track :=
  let rows := library.tracks.flatMap (rows library query.joins)
  let kept := rows.filter fun row =>
    row.track.location.isSome && query.condition.truth row == some true
  kept.map (·.track)

/-- An item in front of those seen before, unless it is one of them. -/
def addUnseen [BEq α] (seen : List α) (item : α) : List α :=
  if seen.contains item then seen else item :: seen

def firstOccurrences [BEq α] (items : List α) : List α := (items.foldl addUnseen []).reverse

/-- What a join finds for a track is never empty. -/
theorem found_ne_nil (library : Library) (track : Track) (playlist : Option Key) :
    found library track playlist ≠ [] := by
  simp only [found]
  split <;> simp_all

/-- A join finds playlists or nothing, not both. -/
theorem isSome_of_mem_found {library : Library} {track : Track} {playlist p : Option Key}
    (h : p ∈ found library track playlist) :
    p.isSome = ((found library track playlist).headD none).isSome := by
  simp only [found] at h ⊢
  split at h
  · simp_all
  · rename_i some
    simp only [some, Bool.false_eq_true, ↓reduceIte]
    cases matching : library.memberships.filter fun m =>
        m.track == track.id.key && playlist.all (m.playlist == ·) with
    | nil => simp [matching] at some
    | cons m rest =>
      obtain ⟨m, -, rfl⟩ := List.mem_map.mp h
      simp

end Query

end MusicLibrary
