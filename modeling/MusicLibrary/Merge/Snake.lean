/-! The middle snake of the shortest edit path between two sequences. Two searches run towards
each other, one from the start and one from the end; each keeps, for every diagonal, the furthest
point that a path with so many edits reaches. Where they overlap the path is cut in two. -/

namespace MusicLibrary.Merge

variable {α : Type} [DecidableEq α]

def runLength (a b : Array α) (x y : Nat) : Nat :=
  if h : x < a.size ∧ y < b.size then
    if a[x] = b[y] then runLength a b (x + 1) (y + 1) + 1 else 0
  else 0
termination_by a.size - x

structure Reach where
  center : Nat
  positions : Array Nat

namespace Reach

def start (center : Nat) : Reach := ⟨center, Array.replicate (2 * center + 1) 0⟩

def get (reach : Reach) (diagonal : Int) : Nat :=
  reach.positions.getD (diagonal + reach.center).toNat 0

def set (reach : Reach) (diagonal : Int) (position : Nat) : Reach :=
  { reach with positions := reach.positions.setIfInBounds (diagonal + reach.center).toNat position }

/-- Where the next edit leads on a diagonal: an insertion comes from the diagonal above, a deletion
from the one below, and the further one of the two is taken. -/
def step (reach : Reach) (edits diagonal : Int) : Nat :=
  if diagonal = -edits ∨
      (diagonal ≠ edits ∧ reach.get (diagonal - 1) < reach.get (diagonal + 1)) then
    reach.get (diagonal + 1)
  else reach.get (diagonal - 1) + 1

end Reach

def diagonals (edits : Nat) : List Int :=
  (List.range (edits + 1)).map fun (i : Nat) => (edits : Int) - 2 * (i : Int)

structure Search where
  forward : Reach
  backward : Reach

abbrev Progress := Except (Nat × Nat) Search

def forwardStep (old new : Array α) (edits : Nat) (search : Search) (diagonal : Int) : Progress :=
  let difference := (old.size : Int) - new.size
  let x := search.forward.step edits diagonal
  let y := ((x : Int) - diagonal).toNat
  let reached := x + runLength old new x y
  let other := search.backward.get (difference - diagonal)
  if difference % 2 ≠ 0 ∧ (diagonal - difference).natAbs < edits ∧ old.size ≤ reached + other then
    .error (x, y)
  else .ok { search with forward := search.forward.set diagonal reached }

/-- One step of the search from the end, over the reversed sequences. -/
def backwardStep (oldReversed newReversed : Array α) (edits : Nat) (search : Search)
    (diagonal : Int) : Progress :=
  let difference := (oldReversed.size : Int) - newReversed.size
  let x := search.backward.step edits diagonal
  let y := ((x : Int) - diagonal).toNat
  let run := runLength oldReversed newReversed x y
  let other := search.forward.get (difference - diagonal)
  if difference % 2 = 0 ∧ (diagonal - difference).natAbs ≤ edits ∧
      oldReversed.size ≤ x + run + other then
    .error (oldReversed.size - (x + run), newReversed.size - (y + run))
  else .ok { search with backward := search.backward.set diagonal (x + run) }

def searchRound (old new oldReversed newReversed : Array α) (search : Search) (edits : Nat) :
    Progress := do
  let search ← (diagonals edits).foldlM (forwardStep old new edits) search
  (diagonals edits).foldlM (backwardStep oldReversed newReversed edits) search

/-- Where the edit path between two lists is cut, if the searches meet. -/
def middleSnake? (old new : List α) : Option (Nat × Nat) :=
  let rounds := (old.length + new.length + 1) / 2 + 1
  let search : Search := ⟨.start (rounds + 1), .start (rounds + 1)⟩
  let round := searchRound old.toArray new.toArray old.reverse.toArray new.reverse.toArray
  match (List.range rounds).foldlM round search with
  | .error cut => some cut
  | .ok _ => none

end MusicLibrary.Merge
