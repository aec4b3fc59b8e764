import MusicLibrary.Merge.Compact
import MusicLibrary.Merge.Diff

/-! Patches: the edits between two lists, each with up to three kept items around it. Edits that
lie close together share a hunk. A hunk can be applied wherever the items that it expects are
found, though never to items that an earlier hunk has put in. -/

namespace MusicLibrary.Merge

variable {α : Type}

/-- How many kept items a hunk shows in front of its edits, and how many behind them. -/
def contextLength : Nat := 3

structure Block (α : Type) where
  gap : List α
  removed : List α
  added : List α

/-- An edit in front of blocks; edits without a kept item between them are one. -/
def addEdit (removed added : List α) : List (Block α) → List (Block α)
  | ⟨[], r, a⟩ :: rest => ⟨[], removed ++ r, added ++ a⟩ :: rest
  | blocks => ⟨[], removed, added⟩ :: blocks

/-- The blocks of a script, and the kept run behind the last one. -/
def blocksOf : List (Edit α) → List (Block α) × List α
  | [] => ([], [])
  | e :: rest =>
    let (blocks, tail) := blocksOf rest
    match e.action, blocks with
    | .keep, [] => ([], e.items ++ tail)
    | .keep, b :: more => ({ b with gap := e.items ++ b.gap } :: more, tail)
    | .delete, blocks => (addEdit e.items [] blocks, tail)
    | .insert, blocks => (addEdit [] e.items blocks, tail)

/-- A part of a list to be replaced, behind items that stay. -/
structure Hunk (α : Type) where
  skipped : List α
  before : List α
  after : List α

/-- The last items of a list, as many as a hunk shows. -/
def lead (items : List α) : List α := items.drop (items.length - contextLength)

/-- The first items of a list, as many as a hunk shows. -/
def trail (items : List α) : List α := items.take contextLength

def unseen (items : List α) : List α := dropEnd (items.drop contextLength) contextLength

/-- Whether the block behind a gap belongs to the hunk in front of the gap: the context on both
sides meets, or touches at the end of the list that is patched. -/
def isClose (block : Block α) (later : List (Block α)) (tail : List α) : Bool :=
  block.gap.length < 2 * contextLength ||
    (block.gap.length == 2 * contextLength &&
      (block.removed ++ later.flatMap (fun b => b.gap ++ b.removed) ++ tail).isEmpty)

def hunksFrom (tail : List α) (hunk : Hunk α) : List (Block α) → List (Hunk α)
  | [] => [⟨hunk.skipped, hunk.before ++ trail tail, hunk.after ++ trail tail⟩]
  | b :: later =>
    if isClose b later tail then
      hunksFrom tail
        ⟨hunk.skipped, hunk.before ++ b.gap ++ b.removed, hunk.after ++ b.gap ++ b.added⟩ later
    else
      ⟨hunk.skipped, hunk.before ++ trail b.gap, hunk.after ++ trail b.gap⟩ ::
        hunksFrom tail ⟨unseen b.gap, lead b.gap ++ b.removed, lead b.gap ++ b.added⟩ later

def hunks (tail : List α) : List (Block α) → List (Hunk α)
  | [] => []
  | b :: later =>
    hunksFrom tail
      ⟨dropEnd b.gap contextLength, lead b.gap ++ b.removed, lead b.gap ++ b.added⟩ later

def patch [DecidableEq α] (old new : List α) : List (Hunk α) :=
  let (blocks, tail) := blocksOf (compact (diff old new))
  hunks tail blocks

/-! Applying. -/

/-- An item of the list that is patched. -/
structure Line (α : Type) where
  item : α
  /-- Whether a hunk has put it in. -/
  patched : Bool

variable [DecidableEq α]

def fits (image : List (Line α)) (items : List α) (position : Nat) : Bool :=
  let found := (image.drop position).take items.length
  position ≤ image.length && found.map (·.item) == items && found.all (! ·.patched)

omit [DecidableEq α] in
/-- Takes from two lists in turn; when one is used up the other one goes on. -/
def interleave : List Nat → List Nat → List Nat
  | [], bs => bs
  | as, [] => as
  | a :: as, b :: bs => a :: b :: interleave as bs

/-- The positions in the order in which they are tried: the expected one, and then further and
further away, the one in front before the one behind. -/
def positions (expected length : Nat) : List Nat :=
  let start := min expected length
  start :: interleave (List.range start).reverse
    ((List.range (length - start)).drop 1 |>.map (start + ·))

/-- Replaces what a hunk expects, at the first position where it stands. -/
def applyHunk (image : List (Line α)) (expected : Nat) (hunk : Hunk α) : Option (List (Line α)) :=
  ((positions expected image.length).find? (fits image hunk.before)).map fun position =>
    image.take position ++ hunk.after.map (Line.mk · true) ++
      image.drop (position + hunk.before.length)

/-- Applies hunks in order. The expected position is the one in the list that the patch leads
to. -/
def applyHunks (image : List (Line α)) (done : Nat) : List (Hunk α) → Option (List (Line α))
  | [] => some image
  | hunk :: rest => do
    let image ← applyHunk image (done + hunk.skipped.length) hunk
    applyHunks image (done + hunk.skipped.length + hunk.after.length) rest

def applyPatch (hunks : List (Hunk α)) (items : List α) : Option (List α) :=
  (applyHunks (items.map (Line.mk · false)) 0 hunks).map (·.map (·.item))

/-- The changes from a base to one list, made in another list. If they do not fit, the other list
is kept as it is. -/
def threeWay (base mine theirs : List α) : List α × Bool :=
  match applyPatch (patch base mine) theirs with
  | some merged => (merged, true)
  | none => (theirs, false)

end MusicLibrary.Merge
