import MusicLibrary.PersistentId

/-! Places of tracks in playlists. The rows of a playlist stand in the order of their positions,
so that a playlist's list of tracks can be read off them. -/

namespace MusicLibrary

structure Membership where
  playlist : Key
  track : Key
  position : Nat
  deriving DecidableEq, Inhabited

/-- A row of the same playlist further on. -/
def Membership.Before (a b : Membership) : Prop :=
  a.playlist = b.playlist → a.position < b.position

structure Memberships where
  rows : List Membership
  ordered : rows.Pairwise Membership.Before

namespace Memberships

def empty : Memberships := ⟨[], .nil⟩

def tracks (memberships : Memberships) (playlist : Key) : List Key :=
  (memberships.rows.filter (·.playlist = playlist)).map (·.track)

def placesFrom (playlist : Key) (position : Nat) : List Key → List Membership
  | [] => []
  | track :: rest => ⟨playlist, track, position⟩ :: placesFrom playlist (position + 1) rest

theorem of_mem_placesFrom {playlist : Key} {position : Nat} {tracks : List Key} {m : Membership}
    (h : m ∈ placesFrom playlist position tracks) :
    m.playlist = playlist ∧ position ≤ m.position := by
  induction tracks generalizing position with
  | nil => simp [placesFrom] at h
  | cons track rest ih =>
    rcases List.mem_cons.1 h with rfl | mem
    · simp
    · have ⟨same, le⟩ := ih mem
      exact ⟨same, by omega⟩

theorem ordered_placesFrom (playlist : Key) (position : Nat) (tracks : List Key) :
    (placesFrom playlist position tracks).Pairwise Membership.Before := by
  induction tracks generalizing position with
  | nil => exact .nil
  | cons track rest ih =>
    exact .cons (fun m mem _ => by have := (of_mem_placesFrom mem).2; simp only; omega) (ih _)

@[simp] theorem map_track_placesFrom (playlist : Key) (position : Nat) (tracks : List Key) :
    (placesFrom playlist position tracks).map (·.track) = tracks := by
  induction tracks generalizing position with
  | nil => rfl
  | cons track rest ih => simp [placesFrom, ih]

def replace (memberships : Memberships) (playlist : Key) (tracks : List Key) : Memberships where
  rows := memberships.rows.filter (·.playlist ≠ playlist) ++ placesFrom playlist 0 tracks
  ordered := List.pairwise_append.2 ⟨memberships.ordered.filter _,
    ordered_placesFrom playlist 0 tracks, fun a ha b hb same => by
      have := (of_mem_placesFrom hb).1
      simp_all⟩

def eraseTrack (memberships : Memberships) (track : Key) : Memberships :=
  ⟨memberships.rows.filter (·.track ≠ track), memberships.ordered.filter _⟩

def erasePlaylist (memberships : Memberships) (playlist : Key) : Memberships :=
  memberships.replace playlist []

@[simp] theorem tracks_empty (playlist : Key) : empty.tracks playlist = [] := rfl

theorem tracks_replace (memberships : Memberships) (playlist other : Key) (tracks : List Key) :
    (memberships.replace playlist tracks).tracks other =
      if other = playlist then tracks else memberships.tracks other := by
  simp only [Memberships.tracks, replace, List.filter_append, List.filter_filter]
  split
  · subst other
    have none : memberships.rows.filter
        (fun m => decide (m.playlist = playlist) && decide (m.playlist ≠ playlist)) = [] := by
      simp
    have all : (placesFrom playlist 0 tracks).filter (·.playlist = playlist) =
        placesFrom playlist 0 tracks :=
      List.filter_eq_self.2 fun m mem => by simp [(of_mem_placesFrom mem).1]
    rw [none, all, List.nil_append, map_track_placesFrom]
  · rename_i different
    have all : (placesFrom playlist 0 tracks).filter (·.playlist = other) = [] :=
      List.filter_eq_nil_iff.2 fun m mem => by simp [(of_mem_placesFrom mem).1, Ne.symm different]
    rw [all, List.append_nil]
    congr 1
    refine List.filter_congr fun m _ => ?_
    by_cases h : m.playlist = other <;> simp [h, different]

@[simp] theorem tracks_eraseTrack (memberships : Memberships) (track playlist : Key) :
    (memberships.eraseTrack track).tracks playlist =
      (memberships.tracks playlist).filter (· ≠ track) := by
  simp [tracks, eraseTrack, List.filter_map, List.filter_filter, Function.comp_def, Bool.and_comm]

end Memberships

end MusicLibrary
