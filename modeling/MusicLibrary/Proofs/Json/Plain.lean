import MusicLibrary.Json.Fields
import MusicLibrary.Proofs.Json.Indented

/-! Plain values: nothing in them is unreadable, and every number in them is an integer of
sixty-four bits. They are read from their text, be it compact or indented. -/

namespace MusicLibrary.Json

structure IsPlain (j : Json) : Prop where
  readable : j.isReadable = true
  legible : ∀ t ∈ j.tokens, t.IsLegible

theorem IsPlain.parse?_compact {j : Json} (h : j.IsPlain) : parse? j.compact = some j :=
  Json.parse?_compact h.readable h.legible

theorem IsPlain.parse?_indented {j : Json} (h : j.IsPlain) : parse? j.indented = some j :=
  Json.parse?_indented h.readable h.legible

theorem isPlain_text (s : String) : (text s).IsPlain := by
  refine ⟨rfl, ?_⟩
  intro t mem
  rw [List.mem_singleton.1 mem]
  trivial

theorem isPlain_boolean (b : Bool) : (boolean b).IsPlain := by
  refine ⟨rfl, ?_⟩
  intro t mem
  rw [List.mem_singleton.1 mem]
  trivial

theorem isPlain_integer {n : Int} (small : n.natAbs < 2 ^ 64) : (integer n).IsPlain := by
  refine ⟨rfl, ?_⟩
  intro t mem
  rw [List.mem_singleton.1 mem]
  exact small

theorem isPlain_ofNat {n : Nat} (small : n < 2 ^ 64) : (Json.ofNat n).IsPlain :=
  isPlain_integer small

theorem isPlain_ofInt64 (n : Int64) : (ofInt64 n).IsPlain := by
  apply isPlain_integer
  have low := n.le_toInt
  have high := n.toInt_lt
  omega

theorem isPlain_array {items : List Json} (each : ∀ j ∈ items, j.IsPlain) :
    (array items).IsPlain :=
  ⟨isReadable_array fun j mem => (each j mem).readable,
    legible_array fun j mem => (each j mem).legible⟩

theorem isPlain_object {members : List (String × Json)} (each : ∀ m ∈ members, m.2.IsPlain) :
    (object members).IsPlain :=
  ⟨isReadable_object fun m mem => (each m mem).readable,
    legible_object fun m mem => (each m mem).legible⟩

/-! Members that may be left out. -/

/-- A member that is written, if it is, has a plain value. -/
def HasPlainValue (member : Option (String × Json)) : Prop := ∀ m ∈ member, m.2.IsPlain

theorem isPlain_ofMembers {members : List (Option (String × Json))}
    (each : ∀ member ∈ members, HasPlainValue member) : (ofMembers members).IsPlain := by
  apply isPlain_object
  intro m mem
  obtain ⟨member, among, same⟩ := List.mem_filterMap.1 mem
  exact each member among m same

end MusicLibrary.Json
