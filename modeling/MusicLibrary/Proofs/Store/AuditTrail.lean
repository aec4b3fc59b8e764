import MusicLibrary.Proofs.StableSort
import MusicLibrary.Store.Audit

/-! What the audit trail tells of an entry. The limit counts lines before those of an unknown kind are
left out, so such a line may take the place of an older one that is known. -/

namespace MusicLibrary

theorem filter_eq_append (keep : α → Bool) (n : Nat) (items : List α) :
    items.filter keep = (items.take n).filter keep ++ (items.drop n).filter keep := by
  rw [← List.filter_append, List.take_append_drop]

theorem length_filter_take_le (keep : α → Bool) (n : Nat) (items : List α) :
    ((items.take n).filter keep).length ≤ n :=
  Nat.le_trans (List.length_filter_le _ _) (List.length_take_le n items)

theorem filter_take_prefix (keep : α → Bool) (n : Nat) (items : List α) :
    (items.take n).filter keep <+: (items.filter keep).take n := by
  rw [List.prefix_take_iff, filter_eq_append keep n items]
  exact ⟨List.prefix_append _ _, length_filter_take_le keep n items⟩

/-- Items may be left out after taking the first ones instead of before exactly if none of the first
is left out, or all of the others are. -/
theorem filter_take_eq_iff (keep : α → Bool) (n : Nat) (items : List α) :
    (items.take n).filter keep = (items.filter keep).take n ↔
      (∀ item ∈ items.take n, keep item = true) ∨ ∀ item ∈ items.drop n, keep item = false := by
  rw [filter_eq_append keep n items, List.take_append,
    List.take_of_length_le (length_filter_take_le keep n items), List.self_eq_append_right,
    List.take_eq_nil_iff]
  constructor
  · rintro (full | none)
    · left
      have kept := List.length_filter_le keep (items.take n)
      have taken := List.length_take_le n items
      exact List.length_filter_eq_length_iff.mp (by omega)
    · right
      simpa using List.filter_eq_nil_iff.mp none
  · rintro (whole | none)
    · rw [List.filter_eq_self.mpr whole]
      obtain more | few := Nat.lt_or_ge n items.length
      · left
        rw [List.length_take_of_le (Nat.le_of_lt more), Nat.sub_self]
      · right
        rw [List.drop_of_length_le few, List.filter_nil]
    · right
      exact List.filter_eq_nil_iff.mpr fun item mem => by simp [none item mem]

namespace Audit

/-- A line comes before another in a listing: it is later, or has the larger number at the same time. -/
def Newer (a b : AuditEntry × Nat) : Prop :=
  b.1.time < a.1.time ∨ a.1.time = b.1.time ∧ b.2 < a.2

/-- All lines of some sort, the newest one first. -/
structure Lists (audit : Audit) (picks : AuditEntry → Bool) (lines : List (AuditEntry × Nat)) :
    Prop where
  all : lines.Perm (audit.numbered.filter fun line => picks line.1)
  ordered : lines.Pairwise Newer

variable {audit : Audit} {picks : AuditEntry → Bool} {a b : AuditEntry × Nat}
  {lines others : List (AuditEntry × Nat)}

theorem Newer.asymm (newer : Newer a b) : ¬ Newer b a := by
  rintro (late | ⟨same, number⟩)
  · obtain early | ⟨same, -⟩ := newer
    · exact Int64.lt_asymm early late
    · rw [same] at late
      exact Int64.lt_irrefl late
  · obtain early | ⟨-, larger⟩ := newer
    · rw [same] at early
      exact Int64.lt_irrefl early
    · exact Nat.lt_asymm number larger

theorem Lists.unique (one : Lists audit picks lines) (two : Lists audit picks others) :
    lines = others :=
  (one.all.trans two.all.symm).eq_of_pairwise
    (fun _ _ _ _ newer older => absurd older newer.asymm) one.ordered two.ordered

theorem Lists.filter (lists : Lists audit picks lines) (keep : AuditEntry → Bool) :
    Lists audit (fun entry => picks entry && keep entry) (lines.filter fun line => keep line.1) where
  all := by
    have perm := lists.all.filter fun line => keep line.1
    rw [List.filter_filter] at perm
    simpa only [Bool.and_comm] using perm
  ordered := lists.ordered.filter _

theorem pairwise_numbered (audit : Audit) : audit.numbered.Pairwise fun a b => a.2 < b.2 := by
  have numbers : (audit.numbered.map Prod.snd).Pairwise (· < ·) := by
    rw [numbered, List.zipIdx_map_snd]
    exact List.pairwise_lt_range' 1
  exact List.pairwise_map.mp numbers

/-- Lines from the last number to the first are a listing once they are sorted by time. -/
theorem lists_mergeSort (audit : Audit) (picks : AuditEntry → Bool) :
    Lists audit picks
      ((audit.numbered.filter fun line => picks line.1).reverse.mergeSort fun a b =>
        decide (b.1.time ≤ a.1.time)) where
  all := (List.mergeSort_perm _ _).trans (List.reverse_perm _)
  ordered := by
    have falling := List.pairwise_reverse.mpr
      ((pairwise_numbered audit).filter fun line => picks line.1)
    have trans (a b c : AuditEntry × Nat) (h : decide (b.1.time ≤ a.1.time) = true)
        (h' : decide (c.1.time ≤ b.1.time) = true) : decide (c.1.time ≤ a.1.time) = true :=
      decide_eq_true (Int64.le_trans (of_decide_eq_true h') (of_decide_eq_true h))
    have total (a b : AuditEntry × Nat) :
        (decide (b.1.time ≤ a.1.time) || decide (a.1.time ≤ b.1.time)) = true := by
      simpa using Int64.le_total b.1.time a.1.time
    have times := List.pairwise_mergeSort trans total
      (audit.numbered.filter fun line => picks line.1).reverse
    have ties := pairwise_mergeSort_of_ties trans total falling
    refine times.imp₂ (fun a b time tie => ?_) ties
    obtain later | same := Int64.le_iff_lt_or_eq.mp (of_decide_eq_true time)
    · exact .inl later
    · exact .inr ⟨same.symm, tie (decide_eq_true (same ▸ Int64.le_refl _))⟩

theorem Lists.newest_eq {entity entityId : String}
    (lists : Lists audit (·.isAbout entity entityId) lines) (limit : Option Nat) :
    audit.newest entity entityId limit =
      (lines.take (limit.getD 100)).filter (·.1.isKnown) := by
  rw [lists.unique (lists_mergeSort audit _)]
  rfl

/-- What is told of an entry is a start of its known lines, the newest one first. It is all that the
limit allows exactly if the newest lines are all known, or none of the older ones is. -/
theorem newest_known_iff (audit : Audit) (entity entityId : String) (limit : Option Nat) :
    ∃ lines known, Lists audit (·.isAbout entity entityId) lines ∧
      Lists audit (fun entry => entry.isAbout entity entityId && entry.isKnown) known ∧
      audit.newest entity entityId limit =
        (lines.take (limit.getD 100)).filter (·.1.isKnown) ∧
      audit.newest entity entityId limit <+: known.take (limit.getD 100) ∧
      (audit.newest entity entityId limit = known.take (limit.getD 100) ↔
        (∀ line ∈ lines.take (limit.getD 100), line.1.isKnown = true) ∨
          ∀ line ∈ lines.drop (limit.getD 100), line.1.isKnown = false) := by
  have lists := lists_mergeSort audit (·.isAbout entity entityId)
  refine ⟨_, _, lists, lists.filter (·.isKnown), lists.newest_eq limit, ?_, ?_⟩
  · rw [lists.newest_eq limit]
    exact filter_take_prefix _ _ _
  · rw [lists.newest_eq limit]
    exact filter_take_eq_iff _ _ _

/-- A newer line of an unknown kind takes the only place there is. -/
theorem newest_hides_created :
    let created : AuditEntry :=
      { entity := "track", entityId := "1", kind := "track_created", actor := "local", time := 5 }
    let renamed := { created with kind := "track_renamed", time := 6 }
    let audit : Audit := [created, renamed]
    Lists audit (fun entry => entry.isAbout "track" "1" && entry.isKnown) [(created, 1)] ∧
      audit.newest "track" "1" (some 1) = [] ∧ [(created, 1)].take 1 ≠ [] := by
  intro created renamed audit
  have lists : Lists audit (·.isAbout "track" "1") [(renamed, 2), (created, 1)] :=
    ⟨by decide +kernel, List.pairwise_pair.2 (.inl (by decide))⟩
  refine ⟨lists.filter (·.isKnown), ?_, by simp⟩
  rw [lists.newest_eq]
  rfl

end Audit

end MusicLibrary
