import MusicLibrary.Track.Column
import MusicLibrary.Word

/-! How a change in a library file is folded into a stored value. A policy sees the stored value
and the values of the file before and after the change. -/

namespace MusicLibrary

/-- What becomes of a stored value when the file changes. -/
inductive MergePolicy where
  /-- Adopts every change, also one to no value. -/
  | overwrite
  /-- Adopts every change to a value. -/
  | overwriteIfPresent
  /-- Adds what a number has grown by. -/
  | accumulate
  /-- Keeps the smaller one of the stored value and the new one. -/
  | earliest
  /-- Keeps the larger one of the stored value and the new one. -/
  | latest
  /-- Never looks at the file. -/
  | keepStored
  deriving DecidableEq

namespace MergePolicy

def named : List (MergePolicy × String) :=
  [(overwrite, "Overwrite"), (overwriteIfPresent, "OverwriteIfPresent"),
   (accumulate, "Accumulate"), (earliest, "Earliest"), (latest, "Latest"), (keepStored, "Local")]

def label (policy : MergePolicy) : String := (named.lookup policy).getD ""

def ofLabel? (s : String) : Option MergePolicy := (named.find? (·.2 == s)).map (·.1)

/-- A counter with what the file has added to it, unless a step of the calculation leaves the range
of a word; a missing value counts as zero. -/
def grown? (stored old new : Option Int64) : Option (Option Int64) := do
  let growth ← word64? ((new.getD 0).toInt - (old.getD 0).toInt)
  if 0 < growth then
    let sum ← word64? ((stored.getD 0).toInt + growth.toInt)
    return some sum
  else return stored

/-- The sum of a counter and its growth, unless it leaves the range of a word; only numbers can
grow. -/
def accumulated? : (type : FieldType) → (stored old new : Option type.Value) →
    Option (Option type.Value)
  | .integer, stored, old, new => grown? stored old new
  | .text, stored, _, _ => some stored
  | .flag, stored, _, _ => some stored
  | .time, stored, _, _ => some stored
  | .mediaKind, stored, _, _ => some stored
  | .id, stored, _, _ => some stored

/-- The new value where there is no stored one, or where it replaces the stored one. -/
def better (replaces : α → α → Bool) (stored new : Option α) : Option α :=
  match stored, new with
  | some s, some n => if replaces n s then some n else some s
  | some s, none => some s
  | none, new => new

/-- What becomes of a stored value, unless a number leaves the range of a word. -/
def merge? (policy : MergePolicy) (type : FieldType) (stored old new : Option type.Value) :
    Option (Option type.Value) :=
  match policy with
  | .overwrite => some (if old = new then stored else new)
  | .overwriteIfPresent => some (if old = new then stored else new <|> stored)
  | .accumulate => accumulated? type stored old new
  | .earliest => some (better type.before stored new)
  | .latest => some (better (fun n s => type.before s n) stored new)
  | .keepStored => some stored

@[simp] theorem merge?_keepStored (type : FieldType) (stored old new : Option type.Value) :
    merge? .keepStored type stored old new = some stored := rfl

end MergePolicy

/-- The policy of a column. Ratings, flags and remarks can be taken back in the file; counters are
kept on both sides; times of events only move one way. -/
def Track.Column.policy : Track.Column → MergePolicy
  | .comments | .compilation | .gapless | .loved | .purchased | .rating | .volumeAdjustment =>
    .overwrite
  | .playCount | .skipCount => .accumulate
  | .dateAdded => .earliest
  | .playDate | .skipDate => .latest
  | .dateModified => .keepStored
  | _ => .overwriteIfPresent

end MusicLibrary
