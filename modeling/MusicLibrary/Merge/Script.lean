/-! Edit scripts between two lists: runs of items that are kept, deleted or inserted. A script
turns its source into its target. -/

namespace MusicLibrary.Merge

inductive Action where
  | keep | delete | insert
  deriving DecidableEq

/-- A run of items and what happens to them. -/
structure Edit (α : Type) where
  action : Action
  items : List α
  deriving DecidableEq

variable {α : Type}

def Edit.source (e : Edit α) : List α := if e.action = .insert then [] else e.items

def Edit.target (e : Edit α) : List α := if e.action = .delete then [] else e.items

def source (script : List (Edit α)) : List α := script.flatMap Edit.source

def target (script : List (Edit α)) : List α := script.flatMap Edit.target

@[simp] theorem source_append (a b : List (Edit α)) : source (a ++ b) = source a ++ source b := by
  simp [source]

@[simp] theorem target_append (a b : List (Edit α)) : target (a ++ b) = target a ++ target b := by
  simp [target]

@[simp] theorem source_cons (e : Edit α) (rest : List (Edit α)) :
    source (e :: rest) = e.source ++ source rest := rfl

@[simp] theorem target_cons (e : Edit α) (rest : List (Edit α)) :
    target (e :: rest) = e.target ++ target rest := rfl

@[simp] theorem source_nil : source ([] : List (Edit α)) = [] := rfl

@[simp] theorem target_nil : target ([] : List (Edit α)) = [] := rfl

/-- An edit of a run, or none if the run is empty. -/
def edit (action : Action) (items : List α) : List (Edit α) :=
  if items.isEmpty then [] else [⟨action, items⟩]

@[simp] theorem source_edit (action : Action) (items : List α) :
    source (edit action items) = (Edit.mk action items).source := by
  cases items <;> simp [edit, Edit.source]

@[simp] theorem target_edit (action : Action) (items : List α) :
    target (edit action items) = (Edit.mk action items).target := by
  cases items <;> simp [edit, Edit.target]

variable [DecidableEq α]

def commonPrefix : List α → List α → List α
  | a :: as, b :: bs => if a = b then a :: commonPrefix as bs else []
  | _, _ => []

def commonSuffix (as bs : List α) : List α := (commonPrefix as.reverse bs.reverse).reverse

theorem commonPrefix_prefix_left (as bs : List α) : commonPrefix as bs <+: as := by
  induction as generalizing bs with
  | nil => simp [commonPrefix]
  | cons a as ih =>
    cases bs with
    | nil => simp [commonPrefix]
    | cons b bs =>
      simp only [commonPrefix]
      split
      · exact List.cons_prefix_cons.2 ⟨rfl, ih bs⟩
      · exact List.nil_prefix

theorem commonPrefix_comm (as bs : List α) : commonPrefix as bs = commonPrefix bs as := by
  induction as generalizing bs with
  | nil => cases bs <;> simp [commonPrefix]
  | cons a as ih =>
    cases bs with
    | nil => simp [commonPrefix]
    | cons b bs =>
      simp only [commonPrefix, eq_comm (a := b)]
      split
      · rename_i h; rw [h, ih]
      · rfl

theorem commonPrefix_prefix_right (as bs : List α) : commonPrefix as bs <+: bs :=
  commonPrefix_comm as bs ▸ commonPrefix_prefix_left bs as

theorem commonSuffix_suffix_left (as bs : List α) : commonSuffix as bs <:+ as := by
  have h := commonPrefix_prefix_left as.reverse bs.reverse
  rwa [← List.reverse_suffix, List.reverse_reverse] at h

theorem commonSuffix_suffix_right (as bs : List α) : commonSuffix as bs <:+ bs := by
  have h := commonPrefix_prefix_right as.reverse bs.reverse
  rwa [← List.reverse_suffix, List.reverse_reverse] at h

def dropEnd (items : List α) (count : Nat) : List α := items.take (items.length - count)

omit [DecidableEq α] in
theorem dropEnd_append_of_suffix {suffix items : List α} (h : suffix <:+ items) :
    dropEnd items suffix.length ++ suffix = items := by
  obtain ⟨front, rfl⟩ := h
  simp [dropEnd]

omit [DecidableEq α] in
theorem append_drop_of_prefix {front items : List α} (h : front <+: items) :
    front ++ items.drop front.length = items := by
  obtain ⟨rest, rfl⟩ := h
  simp

end MusicLibrary.Merge
