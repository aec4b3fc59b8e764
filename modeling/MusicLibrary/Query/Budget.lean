import MusicLibrary.Word

/-! The bytes and the time that a limited playlist may still take. -/

namespace MusicLibrary.Query

structure Budget where
  size : Int64
  time : Int64
  deriving DecidableEq

namespace Budget

def unlimited : Int64 := 9223372036854775807

/-- The budget of two caps. A cap that is not set is the largest word. -/
def ofCaps (maxSize maxTime : Option UInt64) : Budget :=
  let start := fun (cap : Option UInt64) => (cap.map fun n => clamp64 n.toNat).getD unlimited
  ⟨start maxSize, start maxTime⟩

/-- What is left after a size and a time, which count as zero if they are not set; nothing if
either cap is exceeded. -/
def charge? (budget : Budget) (size time : Option Int64) : Option Budget :=
  let sizeLeft := saturatingSub budget.size (size.getD 0)
  let timeLeft := saturatingSub budget.time (time.getD 0)
  if sizeLeft < 0 ∨ timeLeft < 0 then none else some ⟨sizeLeft, timeLeft⟩

/-- Whether each of a sequence of charges is admitted; a refused one leaves the budget as it is. -/
def admissions (budget : Budget) : List (Option Int64 × Option Int64) → List Bool
  | [] => []
  | (size, time) :: rest =>
    match budget.charge? size time with
    | some left => true :: left.admissions rest
    | none => false :: budget.admissions rest

def takeFitting (budget : Budget) (cost : α → Option Int64 × Option Int64) : List α → List α
  | [] => []
  | item :: rest =>
    match budget.charge? (cost item).1 (cost item).2 with
    | some left => item :: left.takeFitting cost rest
    | none => []

end Budget

end MusicLibrary.Query
