import Mathlib
import Campaign.Record

/-!
# Records in the order of their keys

The rank of a key puts keys in order field by field. Records with distinct keys have one ascending order,
whatever order they were in before.
-/

namespace Campaign

namespace Key

/-- The order of keys: field by field, the interval first. -/
def Precedes (k l : Key) : Prop :=
  k.interval < l.interval ∨ k.interval = l.interval ∧
    (k.ratio < l.ratio ∨ k.ratio = l.ratio ∧
      (k.unit < l.unit ∨ k.unit = l.unit ∧ k.size < l.size))

theorem digit_lt_iff {range x y a b : Nat} (ha : a < range) (hb : b < range) :
    x * range + a < y * range + b ↔ x < y ∨ x = y ∧ a < b := by
  rcases Nat.lt_trichotomy x y with h | rfl | h
  · have hstep := Nat.mul_le_mul_right range h
    rw [Nat.succ_mul] at hstep
    exact ⟨fun _ => .inl h, fun _ => by omega⟩
  · simp
  · have hstep := Nat.mul_le_mul_right range h
    rw [Nat.succ_mul] at hstep
    omega

theorem digit_eq_iff {range x y a b : Nat} (ha : a < range) (hb : b < range) :
    x * range + a = y * range + b ↔ x = y ∧ a = b := by
  have h := digit_lt_iff (x := x) (y := y) ha hb
  have h' := digit_lt_iff (x := y) (y := x) hb ha
  omega

theorem rank_lt_iff {k l : Key} : k.rank < l.rank ↔ k.Precedes l := by
  have hlt (v : UInt32) : v.toNat < fieldRange := v.toNat_lt
  simp only [rank, Precedes, UInt32.lt_iff_toNat_lt, ← UInt32.toNat_inj]
  generalize fieldRange = range at hlt
  simp only [digit_lt_iff (hlt _) (hlt _), digit_eq_iff (hlt _) (hlt _)]
  tauto

theorem rank_inj {k l : Key} : k.rank = l.rank ↔ k = l := by
  have hlt (v : UInt32) : v.toNat < fieldRange := v.toNat_lt
  refine ⟨fun h => ?_, congrArg rank⟩
  simp only [rank] at h
  generalize fieldRange = range at hlt h
  simp only [digit_eq_iff (hlt _) (hlt _)] at h
  obtain ⟨⟨⟨hi, hr⟩, hu⟩, hs⟩ := h
  exact Setting.ext_get fun p => UInt32.toNat_inj.1 (by cases p <;> assumption)

end Key

namespace Record
variable {rs rs' : List Record}

theorem le_trans_key (a b c : Record) : a.key.le b.key → b.key.le c.key → a.key.le c.key := by
  simp only [Key.le, decide_eq_true_eq]; exact Nat.le_trans

theorem le_total_key (a b : Record) : a.key.le b.key || b.key.le a.key := by
  simp only [Key.le, Bool.or_eq_true, decide_eq_true_eq]; exact Nat.le_total _ _

theorem sorted_perm (rs : List Record) : (sorted rs).Perm rs := List.mergeSort_perm _ _

theorem pairwise_sorted (hd : (rs.map key).Nodup) : (sorted rs).Pairwise fun r s => r.key.Precedes s.key := by
  have hle := List.pairwise_mergeSort le_trans_key le_total_key rs
  have hne : (sorted rs).Pairwise fun r s => r.key ≠ s.key :=
    List.pairwise_map.1 (((sorted_perm rs).map key).nodup_iff.2 hd)
  refine (hle.and hne).imp fun {r s} h => ?_
  obtain ⟨h, hne⟩ := h
  rw [Key.le, decide_eq_true_eq] at h
  exact Key.rank_lt_iff.1 (lt_of_le_of_ne h (Key.rank_inj.not.2 hne))

end Record
end Campaign
