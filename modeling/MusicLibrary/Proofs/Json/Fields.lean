import Mathlib.Data.List.Forall2
import MusicLibrary.Json.Fields

/-! Fields read back from what is written: numbers, lists, and members that are left out when they
hold nothing. -/

namespace MusicLibrary.Json

variable {α : Type}

theorem natBelow?_ofNat {n bound : Nat} (small : n < bound) :
    (Json.ofNat n).natBelow? bound = some n := by
  have within : (0 : Int) ≤ n ∧ (n : Int) < bound := by omega
  rw [Json.ofNat, natBelow?, if_pos within, Int.toNat_natCast]

@[simp] theorem uint32?_ofNat (n : UInt32) : (Json.ofNat n.toNat).uint32? = some n := by
  rw [uint32?, natBelow?_ofNat n.toNat_lt, Option.map_some, UInt32.ofNat_toNat]

@[simp] theorem uint64?_ofNat (n : UInt64) : (Json.ofNat n.toNat).uint64? = some n := by
  rw [uint64?, natBelow?_ofNat n.toNat_lt, Option.map_some, UInt64.ofNat_toNat]

theorem list?_map_of_mem {read : Json → Option α} {write : α → Json} {items : List α}
    (inverse : ∀ x ∈ items, read (write x) = some x) :
    list? read (.array (items.map write)) = some items := by
  rw [list?]
  induction items with
  | nil => rfl
  | cons x rest ih =>
    rw [List.map_cons, List.mapM_cons, inverse x List.mem_cons_self,
      ih fun y mem => inverse y (List.mem_cons_of_mem x mem)]
    rfl

theorem list?_map {read : Json → Option α} {write : α → Json}
    (inverse : ∀ x, read (write x) = some x) (items : List α) :
    list? read (.array (items.map write)) = some items :=
  list?_map_of_mem fun x _ => inverse x

/-- Known names that occur once are the fields of a record. -/
theorem fields?_object {names : List String} {members : Fields}
    (known : ∀ m ∈ members, m.1 ∈ names) (once : (members.map (·.1)).Nodup) :
    (object members).fields? names = some members := by
  have kept : members.filter (fun m => names.contains m.1) = members :=
    List.filter_eq_self.2 fun m mem => List.contains_iff_mem.2 (known m mem)
  rw [fields?, kept, if_pos once]

/-- Members under the given names, each of which may be left out. -/
abbrev Labelled (names : List String) (members : List (Option (String × Json))) : Prop :=
  List.Forall₂ (fun name member => ∀ m ∈ member, m.1 = name) names members

theorem Labelled.sublist {names : List String} {members : List (Option (String × Json))}
    (h : Labelled names members) : ((members.filterMap id).map (·.1)).Sublist names := by
  induction h with
  | nil => exact List.Sublist.refl []
  | @cons name member _ _ label _ ih =>
    cases member with
    | none => exact ih.cons name
    | some m =>
      rw [← label m rfl]
      exact ih.cons_cons m.1

theorem fields?_ofMembers {names own : List String} {members : List (Option (String × Json))}
    (labels : Labelled own members) (known : own ⊆ names) (once : own.Nodup) :
    (ofMembers members).fields? names = some (members.filterMap id) :=
  fields?_object (fun _ mem => known (labels.sublist.subset (List.mem_map_of_mem mem)))
    (once.sublist labels.sublist)

namespace Fields

variable {name other : String} {read : Json → Option α}

theorem optional_of_absent {fields : Fields} (absent : fields.lookup name = none) :
    fields.optional name read = some none := by
  rw [optional, absent]

theorem orElse_of_absent {fields : Fields} (absent : fields.lookup name = none) (default : α) :
    fields.orElse name read default = some default := by
  rw [orElse, absent]

theorem optional_of_lookup {fields : Fields} {j : Json} (found : fields.lookup name = some j)
    (held : j ≠ .null) : fields.optional name read = (read j).map some := by
  rw [optional, found]
  split
  · rename_i eq
    cases eq
  · rename_i eq
    exact absurd (Option.some.inj eq) held
  · rename_i eq
    rw [← Option.some.inj eq]

/-! One member after the other. -/

@[simp] theorem optional_nil : optional [] name read = some none := rfl

@[simp] theorem orElse_nil (default : α) : orElse [] name read default = some default := rfl

section

variable (j : Json) (rest : Fields)

@[simp] theorem optional_cons_self (held : j ≠ .null) :
    optional ((name, j) :: rest) name read = (read j).map some :=
  optional_of_lookup List.lookup_cons_self held

@[simp] theorem orElse_cons_self (default : α) :
    orElse ((name, j) :: rest) name read default = read j := by
  rw [orElse, List.lookup_cons_self]

@[simp] theorem required_cons_self : required ((name, j) :: rest) name read = read j := by
  rw [required, List.lookup_cons_self, Option.bind_some]

theorem lookup_cons_of_ne (different : name ≠ other) :
    List.lookup name ((other, j) :: rest) = rest.lookup name := by
  rw [List.lookup_cons, beq_eq_false_iff_ne.2 different]

@[simp] theorem optional_cons_of_ne (different : name ≠ other) :
    optional ((other, j) :: rest) name read = optional rest name read := by
  rw [optional, lookup_cons_of_ne j rest different, optional]

@[simp] theorem orElse_cons_of_ne (different : name ≠ other) (default : α) :
    orElse ((other, j) :: rest) name read default = orElse rest name read default := by
  rw [orElse, lookup_cons_of_ne j rest different, orElse]

@[simp] theorem required_cons_of_ne (different : name ≠ other) :
    required ((other, j) :: rest) name read = required rest name read := by
  rw [required, lookup_cons_of_ne j rest different, required]

end

/-! A member that may be left out. -/

section

variable {member : Option (String × Json)} (label : ∀ m ∈ member, m.1 = name)
  (different : other ≠ name)

include label different

theorem lookup_toList_of_ne : member.toList.lookup other = none := by
  apply List.lookup_eq_none_iff.2
  intro m mem
  rw [bne_iff_ne, label m (Option.mem_toList.1 mem)]
  exact different

theorem optional_toList_of_ne : optional member.toList other read = some none :=
  optional_of_absent (lookup_toList_of_ne label different)

theorem orElse_toList_of_ne (default : α) :
    orElse member.toList other read default = some default :=
  orElse_of_absent (lookup_toList_of_ne label different) default

end

theorem label_of_member (name : String) (write : α → Json) (value : Option α) :
    ∀ m ∈ Json.member name write value, m.1 = name := by
  cases value with
  | none => nofun
  | some v =>
    rintro m ⟨⟩
    rfl

theorem optional_member (name : String) {write : α → Json}
    (inverse : ∀ x, read (write x) = some x) (held : ∀ x, write x ≠ .null) (value : Option α) :
    optional (Json.member name write value).toList name read = some value := by
  cases value with
  | none => rfl
  | some v =>
    change optional [(name, write v)] _ _ = _
    rw [optional_cons_self _ _ (held v), inverse, Option.map_some]

end Fields

end MusicLibrary.Json
