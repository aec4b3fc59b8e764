/-! Tables: rows with distinct keys, in the order of their keys. Two tables that find the same rows
are equal, so a table is no more than what it finds. -/

namespace MusicLibrary

class Keyed (α : Type) (κ : outParam Type) where
  key : α → κ

open Keyed (key)

/-- A row comes before another one if its key is less. -/
def KeyBefore {α κ : Type} [Keyed α κ] [Ord κ] (a b : α) : Prop := compare (key a) (key b) = .lt

structure Table (α : Type) {κ : Type} [Keyed α κ] [Ord κ] where
  rows : List α
  sorted : rows.Pairwise KeyBefore

namespace Table

variable {α κ : Type} [Keyed α κ] [Ord κ]

/-- A row at its place among others; it replaces a row with the same key. -/
def insertRow (row : α) : List α → List α
  | [] => [row]
  | head :: rest =>
    match compare (key row) (key head) with
    | .lt => row :: head :: rest
    | .eq => row :: rest
    | .gt => head :: insertRow row rest

theorem mem_insertRow {row other : α} {rows : List α} (h : other ∈ insertRow row rows) :
    other = row ∨ other ∈ rows := by
  induction rows with
  | nil => simpa [insertRow] using h
  | cons head rest ih =>
    unfold insertRow at h
    split at h <;> grind

theorem sorted_insertRow [Std.TransOrd κ] [Std.LawfulEqOrd κ] (row : α) {rows : List α}
    (h : rows.Pairwise KeyBefore) : (insertRow row rows).Pairwise KeyBefore := by
  induction rows with
  | nil => simp [insertRow]
  | cons head rest ih =>
    have ⟨before, tail⟩ := List.pairwise_cons.1 h
    unfold insertRow
    split
    · rename_i less
      exact List.pairwise_cons.2 ⟨fun other mem => (List.mem_cons.1 mem).elim
        (fun same => same ▸ less) fun mem => Std.TransCmp.lt_trans less (before other mem), h⟩
    · rename_i equal
      have same : key row = key head := Std.LawfulEqOrd.eq_of_compare equal
      exact List.pairwise_cons.2 ⟨fun other mem => by
        simpa [KeyBefore, same] using before other mem, tail⟩
    · rename_i greater
      exact List.pairwise_cons.2 ⟨fun other mem => (mem_insertRow mem).elim
        (fun same => same ▸ Std.OrientedCmp.lt_of_gt greater) (before other), ih tail⟩

def empty : Table α := ⟨[], .nil⟩

def size (table : Table α) : Nat := table.rows.length

/-- The table with a row, in the place of the one with the same key. -/
def put [Std.TransOrd κ] [Std.LawfulEqOrd κ] (table : Table α) (row : α) : Table α :=
  ⟨insertRow row table.rows, sorted_insertRow row table.sorted⟩

theorem nodup_rows [Std.TransOrd κ] (table : Table α) : table.rows.Nodup :=
  table.sorted.imp fun less same => by simp [KeyBefore, same] at less

theorem eq_of_mem_iff [Std.TransOrd κ] {a b : Table α} (h : ∀ row, row ∈ a.rows ↔ row ∈ b.rows) :
    a = b := by
  have same : a.rows = b.rows := by
    refine List.Perm.eq_of_pairwise (fun x y _ _ xy yx => ?_) a.sorted b.sorted
      ((List.perm_ext_iff_of_nodup a.nodup_rows b.nodup_rows).2 h)
    have greater := Std.OrientedCmp.gt_of_lt xy
    simp [KeyBefore, greater] at yx
  cases a; cases b; simp_all

variable [DecidableEq κ]

def find? (table : Table α) (k : κ) : Option α := table.rows.find? (key · = k)

def contains (table : Table α) (k : κ) : Bool := (table.find? k).isSome

def erase (table : Table α) (k : κ) : Table α :=
  ⟨table.rows.filter (key · ≠ k), table.sorted.filter _⟩

@[simp] theorem find?_empty (k : κ) : (empty : Table α).find? k = none := rfl

theorem key_of_find? {table : Table α} {k : κ} {row : α} (h : table.find? k = some row) :
    key row = k := by
  simpa using List.find?_some h

theorem mem_of_find? {table : Table α} {k : κ} {row : α} (h : table.find? k = some row) :
    row ∈ table.rows := List.mem_of_find?_eq_some h

theorem find?_erase (table : Table α) (k k' : κ) :
    (table.erase k).find? k' = if k' = k then none else table.find? k' := by
  simp only [find?, erase, List.find?_filter]
  split
  · simp_all
  · congr 1
    funext row
    by_cases h : key row = k' <;> simp_all

theorem find?_put [Std.TransOrd κ] [Std.LawfulEqOrd κ] (table : Table α) (row : α) (k : κ) :
    (table.put row).find? k = if k = key row then some row else table.find? k := by
  obtain ⟨rows, sorted⟩ := table
  simp only [find?, put]
  clear sorted
  induction rows with
  | nil => by_cases h : key row = k <;> simp_all [insertRow, eq_comm]
  | cons head rest ih =>
    unfold insertRow
    split
    · by_cases h : key row = k <;> simp_all [eq_comm]
    · rename_i equal
      have same : key row = key head := Std.LawfulEqOrd.eq_of_compare equal
      by_cases h : key row = k <;> simp_all [eq_comm]
    · rename_i greater
      have other : key head ≠ key row := fun same => by simp [same] at greater
      by_cases h : key head = k
      · subst h; simp [other]
      · simp [h, ih]

/-- A row of the table is what its key finds. -/
theorem find?_of_mem [Std.TransOrd κ] {table : Table α} {row : α} (h : row ∈ table.rows) :
    table.find? (key row) = some row := by
  obtain ⟨rows, sorted⟩ := table
  simp only [find?] at *
  induction rows with
  | nil => simp at h
  | cons head rest ih =>
    have ⟨before, tail⟩ := List.pairwise_cons.1 sorted
    rcases List.mem_cons.1 h with rfl | mem
    · simp
    · have other : key head ≠ key row := fun same => by
        have less := before row mem
        simp [KeyBefore, same] at less
      simp [other, ih tail mem]

theorem mem_iff_find? [Std.TransOrd κ] {table : Table α} {row : α} :
    row ∈ table.rows ↔ table.find? (key row) = some row := ⟨find?_of_mem, mem_of_find?⟩

/-- Two rows with one key are the same row. -/
theorem eq_of_mem_of_key_eq [Std.TransOrd κ] {table : Table α} {a b : α} (ha : a ∈ table.rows)
    (hb : b ∈ table.rows) (h : key a = key b) : a = b := by
  have found := find?_of_mem ha
  rw [h, find?_of_mem hb] at found
  exact (Option.some.inj found).symm

theorem mem_put [Std.TransOrd κ] [Std.LawfulEqOrd κ] {table : Table α} {row other : α} :
    other ∈ (table.put row).rows ↔ other = row ∨ (other ∈ table.rows ∧ key other ≠ key row) := by
  rw [mem_iff_find?, find?_put]
  split
  · rename_i same
    constructor
    · rintro found
      exact .inl (Option.some.inj found).symm
    · rintro (rfl | ⟨_, different⟩)
      · rfl
      · exact absurd same different
  · rename_i different
    rw [← mem_iff_find?]
    constructor
    · intro mem
      exact .inr ⟨mem, different⟩
    · rintro (rfl | ⟨mem, _⟩)
      · exact absurd rfl different
      · exact mem

theorem mem_erase {table : Table α} {k : κ} {row : α} :
    row ∈ (table.erase k).rows ↔ row ∈ table.rows ∧ key row ≠ k := by
  simp [erase]

/-- Taking out a row makes a table smaller by one. -/
theorem size_erase [Std.TransOrd κ] (table : Table α) (k : κ) :
    (table.erase k).size + (table.contains k).toNat = table.size := by
  obtain ⟨rows, sorted⟩ := table
  simp only [size, erase, contains, find?]
  induction rows with
  | nil => rfl
  | cons head rest ih =>
    have ⟨before, tail⟩ := List.pairwise_cons.1 sorted
    by_cases same : key head = k
    · have others : rest.filter (key · ≠ k) = rest := by
        refine List.filter_eq_self.2 fun row mem => ?_
        have less := before row mem
        simp only [decide_not, Bool.not_eq_eq_eq_not, Bool.not_true, decide_eq_false_iff_not]
        rintro rfl
        simp [KeyBefore, same] at less
      simp_all
    · have fewer := ih tail
      simp only [same, decide_false, List.find?_cons_of_neg, Bool.false_eq_true,
        not_false_eq_true, List.filter_cons, decide_not, Bool.not_false, if_true,
        List.length_cons] at fewer ⊢
      omega

/-- A table is no more than what it finds. -/
theorem eq_of_find?_eq [Std.TransOrd κ] {a b : Table α} (h : ∀ k, a.find? k = b.find? k) :
    a = b :=
  eq_of_mem_iff fun row => ⟨fun mem => mem_of_find? (h (key row) ▸ find?_of_mem mem),
    fun mem => mem_of_find? (h (key row) ▸ find?_of_mem mem)⟩

end Table

end MusicLibrary
