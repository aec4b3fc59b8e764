import MusicLibrary.Merge.Script

/-! Compaction of edit scripts. Each deletion, and then each insertion, is shifted up past equal
items as far as it goes and then down again, and takes up the edits of its kind that it meets. -/

namespace MusicLibrary.Merge

variable {α : Type}

/-- An edit between the edits in front of it, the nearest first, and those behind it. -/
structure Focus (α : Type) where
  before : List (Edit α)
  current : Edit α
  after : List (Edit α)

def Focus.script (f : Focus α) : List (Edit α) := f.before.reverse ++ f.current :: f.after

def weight : List (Edit α) → Nat
  | [] => 0
  | e :: rest => e.items.length + 1 + weight rest

@[simp] theorem weight_nil : weight ([] : List (Edit α)) = 0 := rfl

@[simp] theorem weight_cons (e : Edit α) (rest : List (Edit α)) :
    weight (e :: rest) = e.items.length + 1 + weight rest := rfl

/-- Puts kept items in front of edits, as part of a run that is kept there already. -/
def keepBefore (items : List α) : List (Edit α) → List (Edit α)
  | ⟨.keep, first⟩ :: rest => ⟨.keep, items ++ first⟩ :: rest
  | edits => ⟨.keep, items⟩ :: edits

def keepAfter (items : List α) : List (Edit α) → List (Edit α)
  | ⟨.keep, last⟩ :: rest => ⟨.keep, last ++ items⟩ :: rest
  | edits => ⟨.keep, items⟩ :: edits

/-- What is left of a kept run after a part of it was taken weighs less. -/
theorem weight_rest_lt {rest part left : List α} (edits : List (Edit α))
    (h : ¬ (part = [] ∧ rest ≠ [])) (length : left.length = rest.length - part.length)
    (le : part.length ≤ rest.length) :
    weight (edit .keep left ++ edits) < rest.length + 1 + weight edits := by
  rcases left with _ | ⟨a, left⟩
  · simp only [edit, List.isEmpty_nil, ↓reduceIte, List.nil_append]
    omega
  · rcases part with _ | ⟨b, part⟩
    · have empty : rest = [] := Classical.byContradiction fun h' => h ⟨rfl, h'⟩
      simp [empty] at length
    · simp only [edit, List.isEmpty_cons, Bool.false_eq_true, ↓reduceIte, List.cons_append,
        List.nil_append, weight_cons, List.length_cons] at *
      omega

variable [DecidableEq α]

theorem length_commonPrefix_le (as bs : List α) :
    (commonPrefix as bs).length ≤ bs.length := (commonPrefix_prefix_right as bs).length_le

theorem length_commonSuffix_le (as bs : List α) :
    (commonSuffix as bs).length ≤ bs.length := (commonSuffix_suffix_right as bs).length_le

/-- Shifts the current edit up: past the end of the kept run in front of it that equals its own
end, past an edit of the other kind, and into an edit of its own kind. -/
def shiftUp (before : List (Edit α)) (current : Edit α) (after : List (Edit α)) : Focus α :=
  match before with
  | [] => ⟨[], current, after⟩
  | previous :: rest =>
    if previous.action = .keep then
      let shared := commonSuffix current.items previous.items
      if _h : shared = [] ∧ previous.items ≠ [] then ⟨previous :: rest, current, after⟩
      else
        shiftUp (edit .keep (dropEnd previous.items shared.length) ++ rest)
          ⟨current.action, shared ++ dropEnd current.items shared.length⟩
          (if shared.isEmpty then after else keepBefore shared after)
    else if previous.action = current.action then
      shiftUp rest ⟨current.action, previous.items ++ current.items⟩ after
    else shiftUp rest current (previous :: after)
termination_by weight before
decreasing_by
  · exact weight_rest_lt rest _h (by simp [dropEnd, shared]) (length_commonSuffix_le _ _)
  all_goals simp

/-- Shifts the current edit down: past the start of the kept run behind it that equals its own
start, past an edit of the other kind, and into an edit of its own kind. -/
def shiftDown (before : List (Edit α)) (current : Edit α) (after : List (Edit α)) : Focus α :=
  match after with
  | [] => ⟨before, current, []⟩
  | next :: rest =>
    if next.action = .keep then
      let shared := commonPrefix current.items next.items
      if _h : shared = [] ∧ next.items ≠ [] then ⟨before, current, next :: rest⟩
      else
        shiftDown (if shared.isEmpty then before else keepAfter shared before)
          ⟨current.action, current.items.drop shared.length ++ shared⟩
          (edit .keep (next.items.drop shared.length) ++ rest)
    else if next.action = current.action then
      shiftDown before ⟨current.action, current.items ++ next.items⟩ rest
    else shiftDown (next :: before) current rest
termination_by weight after
decreasing_by
  · exact weight_rest_lt rest _h (by simp [shared]) (length_commonPrefix_le _ _)
  all_goals simp

/-- Shifts the edits of one kind, from the first one on. An edit never ends up further down than it
was, so each step leaves less behind it. -/
def compactFrom (action : Action) : Nat → List (Edit α) → List (Edit α) → List (Edit α)
  | 0, before, after => before.reverse ++ after
  | _ + 1, before, [] => before.reverse
  | steps + 1, before, e :: rest =>
    if e.action = action then
      let up := shiftUp before e rest
      let down := shiftDown up.before up.current up.after
      compactFrom action steps (down.current :: down.before) down.after
    else compactFrom action steps (e :: before) rest

def compactAction (action : Action) (script : List (Edit α)) : List (Edit α) :=
  compactFrom action (weight script) [] script

def compact (script : List (Edit α)) : List (Edit α) :=
  compactAction .insert (compactAction .delete script)

end MusicLibrary.Merge
