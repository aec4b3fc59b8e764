import MusicLibrary.Playlist.Import

/-! Lists of the library application and lists of the user. A record tells which of them it is by
its marks, a playlist by its kind, and a stored playlist by the code of its kind. The three agree
but for a few marks: one has its place among the kinds of the user, and with some the offset of
nameless kinds leads to the code of such a kind. -/

namespace MusicLibrary

namespace PlaylistKind

/-- The kinds of the user's lists. -/
def user : List PlaylistKind := [.folder, .purchased, .mix, .genius, .smart, .standard]

@[simp] theorem isSystem_other (n : Int64) : (other n).isSystem = true := Bool.or_true _

theorem isSystem_eq_false_iff {kind : PlaylistKind} : kind.isSystem = false ↔ kind ∈ user := by
  cases kind with
  | other n => simp [user]
  | _ => decide

theorem user_subset_named : user ⊆ named := by decide

theorem mem_named_or_other (kind : PlaylistKind) : kind ∈ named ∨ ∃ n, kind = .other n := by
  cases kind with
  | other n => exact .inr ⟨n, rfl⟩
  | _ => exact .inl (by decide)

theorem isSystem_ofCode_eq_false_iff {n : Int64} :
    (ofCode n).isSystem = false ↔ n ∈ user.map code := by
  constructor
  · intro h
    rw [← code_ofCode n]
    exact List.mem_map_of_mem (isSystem_eq_false_iff.1 h)
  · intro h
    obtain ⟨kind, mem, rfl⟩ := List.mem_map.1 h
    rw [ofCode_code_of_mem (user_subset_named mem)]
    exact isSystem_eq_false_iff.2 mem

/-- Only a nameless kind can come back from its code as another one. It is a system kind then no
more if the code is that of a kind of the user. -/
theorem isSystem_ofCode_code_iff {kind : PlaylistKind} :
    (ofCode kind.code).isSystem = kind.isSystem ↔ ¬ ∃ n ∈ user.map code, kind = .other n := by
  rcases kind.mem_named_or_other with known | ⟨n, rfl⟩
  · rw [ofCode_code_of_mem known]
    refine iff_of_true rfl ?_
    rintro ⟨n, _, rfl⟩
    simp [named] at known
  · rw [isSystem_other, ← Bool.not_eq_false]
    apply not_congr
    rw [show code (.other n) = n from rfl, isSystem_ofCode_eq_false_iff]
    simp

end PlaylistKind

namespace PlaylistRecord

/-- The flags of a record with the kinds they stand for, the deciding ones first. -/
def flags (record : PlaylistRecord) : List (Option Bool × PlaylistKind) :=
  [(record.master, .master), (record.music, .music), (record.movies, .movies),
   (record.tvShows, .tvShows), (record.podcasts, .podcasts),
   (record.purchasedMusic, .purchasedMusic), (record.audiobooks, .audiobooks)]

def isFlagged (record : PlaylistRecord) : Bool := record.flags.any (·.1.getD false)

theorem isSystem_eq (record : PlaylistRecord) :
    record.isSystem = (record.isFlagged || record.distinguishedKind.isSome) := by
  simp only [isSystem, isFlagged, flags, List.any_cons, List.any_nil, Bool.or_false]
  ac_rfl

end PlaylistRecord

namespace Playlist

open PlaylistKind

variable {record : PlaylistRecord}

/-- The kind of the first flag that is set. -/
def firstKind : List (Option Bool × PlaylistKind) → PlaylistKind → PlaylistKind
  | [], unflagged => unflagged
  | (flag, kind) :: rest, unflagged => if flag.getD false then kind else firstKind rest unflagged

theorem firstKind_mem {flags : List (Option Bool × PlaylistKind)}
    (h : flags.any (·.1.getD false) = true) (unflagged : PlaylistKind) :
    firstKind flags unflagged ∈ flags.map (·.2) := by
  induction flags with
  | nil => cases h
  | cons flag rest ih =>
    obtain ⟨flag, kind⟩ := flag
    cases set : flag.getD false with
    | true => simp [firstKind, set]
    | false =>
      rw [List.any_cons, set, Bool.false_or] at h
      simp [firstKind, set, -List.mem_map, ih h]

theorem firstKind_of_none {flags : List (Option Bool × PlaylistKind)}
    (h : flags.any (·.1.getD false) = false) (unflagged : PlaylistKind) :
    firstKind flags unflagged = unflagged := by
  induction flags with
  | nil => rfl
  | cons flag rest ih =>
    obtain ⟨flag, kind⟩ := flag
    rw [List.any_cons, Bool.or_eq_false_iff] at h
    simp [firstKind, h.1, ih h.2]

/-- The kind of a record without a flag. -/
def unflaggedKind (record : PlaylistRecord) : PlaylistKind :=
  match record.distinguishedKind with
  | some mark => kindOfMark mark
  | none =>
    if record.isFolder then .folder
    else if record.geniusTrackId.isSome then .genius
    else if (smartOf record).isSome then .smart
    else .standard

theorem kindOf_eq (record : PlaylistRecord) :
    kindOf record = firstKind record.flags (unflaggedKind record) := rfl

/-- The flags stand for system kinds with a name. -/
theorem kindOf_of_flagged (h : record.isFlagged = true) :
    kindOf record ∈ named ∧ (kindOf record).isSystem = true := by
  have mem : kindOf record ∈ record.flags.map (·.2) := firstKind_mem h _
  have system : ∀ kind ∈ record.flags.map (·.2), kind ∈ named ∧ kind.isSystem = true := by
    simp only [PlaylistRecord.flags, List.map_cons, List.map_nil]
    decide
  exact system _ mem

theorem unflaggedKind_of_unmarked (h : record.distinguishedKind = none) :
    unflaggedKind record ∈ user := by
  simp only [unflaggedKind, h]
  repeat' split
  all_goals decide

/-- The distinguished kinds with a name. -/
def marks : List Int64 := [2, 3, 4, 5, 10, 19, 65, 66, 67]

/-- Of the distinguished kinds with a name only that of purchased music has a kind of the user. -/
theorem kindOfMark_of_mem {mark : Int64} (known : mark ∈ marks) :
    kindOfMark mark ∈ named ∧ ((kindOfMark mark).isSystem = true ↔ mark ≠ 19) ∧
      1000 + mark ∉ user.map code := by
  simp only [marks, List.mem_cons, List.not_mem_nil, or_false] at known
  rcases known with rfl | rfl | rfl | rfl | rfl | rfl | rfl | rfl | rfl <;> decide

theorem kindOfMark_eq_other {mark : Int64} (unknown : mark ∉ marks) :
    kindOfMark mark = .other (1000 + mark) := by
  unfold kindOfMark
  rw [List.lookup_eq_none_iff.2]
  intro pair mem
  have listed := List.mem_map_of_mem (f := Prod.fst) mem
  exact bne_iff_ne.2 fun same => unknown (same ▸ listed)

theorem isSystem_kindOfMark_iff {mark : Int64} :
    (kindOfMark mark).isSystem = true ↔ mark ≠ 19 := by
  by_cases known : mark ∈ marks
  · exact (kindOfMark_of_mem known).2.1
  · rw [kindOfMark_eq_other known]
    refine iff_of_true (isSystem_other _) ?_
    rintro rfl
    exact known (by decide)

/-- Nameless kinds are set off from the marks, but by too little for some negative ones. -/
theorem isSystem_stored_kindOfMark_iff {mark : Int64} :
    (ofCode (kindOfMark mark).code).isSystem = (kindOfMark mark).isSystem ↔
      mark ∉ [-900, -899, -898, -897, -896, -801] := by
  have offset : 1000 + mark ∈ user.map code ↔ mark ∈ [-900, -899, -898, -897, -896, -801] := by
    have (c : Int64) : 1000 + mark = c ↔ mark = c - 1000 := by grind
    simp [user, code, this]
  rw [← offset]
  by_cases known : mark ∈ marks
  · obtain ⟨named, -, apart⟩ := kindOfMark_of_mem known
    rw [ofCode_code_of_mem named]
    exact iff_of_true rfl apart
  · rw [isSystem_ofCode_code_iff, kindOfMark_eq_other known]
    simp

/-- Whether a record, its playlist and the playlist that comes back from the code of its kind are
taken for the same sort of list. A flag settles it; without one, the purchased music of a
distinguished kind looks like a list of the user, and six distinguished kinds without a name become
one when they are stored. -/
theorem isSystem_agrees_iff (id : PersistentId) (record : PlaylistRecord) :
    let kind := (ofRecord id record).kind
    (record.isSystem = kind.isSystem ↔
        ¬ (record.isFlagged = false ∧ record.distinguishedKind = some 19)) ∧
      ((ofCode kind.code).isSystem = kind.isSystem ↔
        ¬ (record.isFlagged = false ∧
          ∃ mark ∈ [-900, -899, -898, -897, -896, -801],
            record.distinguishedKind = some mark)) := by
  change (_ = (kindOf record).isSystem ↔ _) ∧
    ((ofCode (kindOf record).code).isSystem = (kindOf record).isSystem ↔ _)
  rw [record.isSystem_eq]
  cases flagged : record.isFlagged with
  | true =>
    obtain ⟨known, system⟩ := kindOf_of_flagged flagged
    simp [ofCode_code_of_mem known, system]
  | false =>
    rw [kindOf_eq, firstKind_of_none flagged]
    cases marked : record.distinguishedKind with
    | some mark =>
      have kind : unflaggedKind record = kindOfMark mark := by simp only [unflaggedKind, marked]
      rw [kind, isSystem_stored_kindOfMark_iff]
      simp [@eq_comm _ true, isSystem_kindOfMark_iff]
    | none =>
      have mem := unflaggedKind_of_unmarked marked
      rw [ofCode_code_of_mem (user_subset_named mem), isSystem_eq_false_iff.2 mem]
      simp

/-- A record of a distinguished kind. -/
def marked (mark : Int64) : PlaylistRecord :=
  { persistentId := some ⟨1⟩, name := some "Purchased", distinguishedKind := some mark }

theorem not_isSystem_agrees :
    ¬ ((marked 19).isSystem = (ofRecord ⟨1⟩ (marked 19)).kind.isSystem) ∧
      ¬ ((ofCode (ofRecord ⟨1⟩ (marked (-896))).kind.code).isSystem =
        (ofRecord ⟨1⟩ (marked (-896))).kind.isSystem) := by
  decide +kernel

end Playlist

end MusicLibrary
