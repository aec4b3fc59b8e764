import MusicLibrary.Json.Fields

/-! Playlist kinds. Their codes sort the lists that the library application keeps by itself before
those of the user. -/

namespace MusicLibrary

inductive PlaylistKind where
  | master | downloadedMusic | downloadedMovies | downloadedTvShows | movies | tvShows | music
  | audiobooks | podcasts | purchasedMusic | folder | purchased | mix | genius | smart | standard
  /-- A kind without a name here, by its code. -/
  | other (code : Int64)
  deriving DecidableEq, Inhabited

namespace PlaylistKind

def named : List PlaylistKind :=
  [.master, .downloadedMusic, .downloadedMovies, .downloadedTvShows, .movies, .tvShows, .music,
   .audiobooks, .podcasts, .purchasedMusic, .folder, .purchased, .mix, .genius, .smart, .standard]

def code : PlaylistKind → Int64
  | .master => -1
  | .downloadedMusic => -65
  | .downloadedMovies => -66
  | .downloadedTvShows => -67
  | .movies => 2
  | .tvShows => 3
  | .music => 4
  | .audiobooks => 5
  | .podcasts => 10
  | .purchasedMusic => 19
  | .folder => 100
  | .purchased => 101
  | .mix => 102
  | .genius => 103
  | .smart => 104
  | .standard => 199
  | .other n => n

def ofCode (n : Int64) : PlaylistKind := (named.find? fun kind => kind.code == n).getD (.other n)

/-- The name of a kind; all kinds without one share a word. -/
def name : PlaylistKind → String
  | .master => "master"
  | .downloadedMusic => "downloaded_music"
  | .downloadedMovies => "downloaded_movies"
  | .downloadedTvShows => "downloaded_tvshows"
  | .movies => "movies"
  | .tvShows => "tvshows"
  | .music => "music"
  | .audiobooks => "audiobooks"
  | .podcasts => "podcasts"
  | .purchasedMusic => "purchased_music"
  | .folder => "folder"
  | .purchased => "purchased"
  | .mix => "mix"
  | .genius => "genius"
  | .smart => "smart"
  | .standard => "standard"
  | .other _ => "other"

def isSystem (kind : PlaylistKind) : Bool :=
  kind.code < 100 || match kind with
    | .other _ => true
    | _ => false

def display : PlaylistKind → String
  | .other n => "other(" ++ toString n.toInt ++ ")"
  | kind => kind.name

/-- A kind in JSON is its name, or the code of a kind without one. -/
def toJson : PlaylistKind → Json
  | .other n => .ofInt64 n
  | kind => .text kind.name

def ofJson? : Json → Option PlaylistKind
  | .integer n => (word64? n).map ofCode
  | .text s => named.find? fun kind => kind.name == s
  | _ => none

/-- A named kind is found by its code. -/
theorem ofCode_code_of_mem {kind : PlaylistKind} (h : kind ∈ named) :
    ofCode kind.code = kind := by
  simp only [named, List.mem_cons, List.not_mem_nil, or_false] at h
  rcases h with h | h | h | h | h | h | h | h | h | h | h | h | h | h | h | h <;> subst h <;> rfl

theorem code_ofCode (n : Int64) : (ofCode n).code = n := by
  unfold ofCode
  cases found : named.find? fun kind => kind.code == n with
  | none => rfl
  | some kind => simpa using List.find?_some found

end PlaylistKind

end MusicLibrary
