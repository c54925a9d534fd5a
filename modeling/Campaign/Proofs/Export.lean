import Mathlib
import Campaign.Proofs.Items
import Campaign.Proofs.Numeral
import Campaign.Proofs.Reading

/-!
# Records that JSON tells apart

Numbers in JSON tell finite values apart, since they can be read back, and all else that is not finite is
`null`. So lists of records have the same text only if they differ in nothing but the kind of their values that
are not finite (`records_eq_iff`).
-/

namespace Campaign

namespace Export
variable {l : Layout} {depth : Nat}

theorem isTokenChar_of_isDigit {c : Char} (h : c.isDigit = true) : isTokenChar c = true := by
  simp [isTokenChar, Char.isAlphanum, h]

theorem isTokenChar_toDigits (n : Nat) : ∀ c ∈ Nat.toDigits 10 n, isTokenChar c = true :=
  fun c hc => isTokenChar_of_isDigit ((Text.areDigits_toDigits n).isDigit c hc)

theorem isItem_toDigits (n : Nat) : IsItem l depth (Nat.toDigits 10 n) :=
  .token (Text.areDigits_toDigits n).ne_nil (isTokenChar_toDigits n)

theorem isItem_null : IsItem l depth "null".toList := by
  have hletters : ['n', 'u', 'l', 'l'].all isTokenChar = true := by decide
  exact .token (by decide) (List.all_eq_true.1 hletters)

theorem isTokenChar_positional {digits : List Char} (hd : ∀ c ∈ digits, isTokenChar c = true)
    (whole : Int) : ∀ c ∈ positional digits whole, isTokenChar c = true := by
  have hzeros (count : Nat) : ∀ c ∈ zeros count, isTokenChar c = true :=
    fun c hc => isTokenChar_of_isDigit (isDigit_zeros count c hc)
  unfold positional
  split_ifs <;> simp only [List.forall_mem_append]
  · exact ⟨⟨List.all_eq_true.1 (by decide), hzeros _⟩, hd⟩
  · exact ⟨⟨hd, hzeros _⟩, List.all_eq_true.1 (by decide)⟩
  · exact ⟨⟨fun c hc => hd c (List.mem_of_mem_take hc), List.all_eq_true.1 (by decide)⟩,
      fun c hc => hd c (List.mem_of_mem_drop hc)⟩

theorem isTokenChar_scientific {digits : List Char} (hd : ∀ c ∈ digits, isTokenChar c = true)
    (exponent : Int) : ∀ c ∈ scientific digits exponent, isTokenChar c = true := by
  have hsign : ∀ c ∈ ['e', if exponent < 0 then '-' else '+'], isTokenChar c = true := by
    split_ifs <;> exact List.all_eq_true.1 (by decide)
  unfold scientific
  simp only [List.forall_mem_append]
  refine ⟨⟨?_, hsign⟩, isTokenChar_toDigits _⟩
  split
  · exact hd
  · exact hd
  · rw [List.forall_mem_cons] at hd
    exact List.forall_mem_cons.2 ⟨hd.1, List.forall_mem_cons.2 ⟨by decide, hd.2⟩⟩

theorem isTokenChar_decimal (d : Decimal) : ∀ c ∈ decimal d, isTokenChar c = true := by
  have hd := isTokenChar_toDigits d.digits
  unfold decimal
  dsimp only
  split_ifs
  · exact List.all_eq_true.1 (by decide)
  · exact isTokenChar_positional hd _
  · exact isTokenChar_scientific hd _

theorem isItem_value (v : Value) : IsItem l depth (value v) := by
  by_cases h : v.isFinite = true
  · have hread := ofNumeral?_value h
    refine .token (fun hnil => ?_) ?_
    · rw [hnil] at hread
      cases hread
    · rw [value, if_pos h, List.forall_mem_append]
      refine ⟨?_, isTokenChar_decimal _⟩
      split_ifs <;> exact List.all_eq_true.1 (by decide)
  · rw [value, if_neg h]
    exact isItem_null

theorem isItem_sample (r : Sample) : IsItem l depth (sample l depth r) :=
  .array (List.forall_mem_map.2 fun v _ => isItem_value v)

theorem areMembers_key (k : Key) : AreMembers l depth
    (Parameter.all.map fun p => (p.columnName, Nat.toDigits 10 (k.get p).toNat)) := by
  refine ⟨List.forall_mem_map.2 fun p _ => ?_, List.forall_mem_map.2 fun p _ => isItem_toDigits _⟩
  show '"' ∉ p.columnName.toList
  cases p <;> decide

theorem isItem_rows (rows : List Sample) : IsItem l depth (array l depth (rows.map (sample l (depth + 1)))) :=
  .array (List.forall_mem_map.2 fun r _ => isItem_sample r)

theorem areMembers_rows (rows : List Sample) :
    AreMembers l depth [("rows", array l (depth + 1) (rows.map (sample l (depth + 2))))] :=
  .cons (by decide) (isItem_rows rows) .nil

theorem isItem_samples (ms : Option Matrix) : IsItem l depth (samples l depth ms) := by
  cases ms with
  | none => exact isItem_null
  | some m => exact (areMembers_rows m.rows).isItem

theorem areMembers_record (r : Record) : AreMembers l depth
    [("key", key l (depth + 1) r.key), ("samples", samples l (depth + 1) r.samples)] :=
  .cons (by decide) (areMembers_key r.key).isItem (.cons (by decide) (isItem_samples r.samples) .nil)

theorem isItem_record (r : Record) : IsItem l depth (record l depth r) :=
  (areMembers_record r).isItem

end Export

/-- Two values of which JSON tells no difference: one finite value, or two that are not finite. -/
def Value.Alike (v w : Value) : Prop :=
  v.isFinite = true ∧ w.isFinite = true ∧ v.bits = w.bits ∨ v.isFinite = false ∧ w.isFinite = false

def Sample.Alike (r s : Sample) : Prop :=
  ∀ metric, (r.get metric).Alike (s.get metric)

/-- Two records of one key whose samples are both absent, or have as many rows and the same values but for the
kind of those that are not finite. -/
structure Record.Alike (r s : Record) : Prop where
  key : r.key = s.key
  samples : Option.Rel (fun m n => List.Forall₂ Sample.Alike m.rows n.rows) r.samples s.samples

theorem Record.Alike.isFailed_eq {r s : Record} (h : r.Alike s) : r.isFailed = s.isFailed := by
  obtain ⟨k, ms⟩ := r
  obtain ⟨k', ms'⟩ := s
  cases h.samples with
  | some _ => rfl
  | none => rfl

theorem map_eq_map_iff {α β : Type} {f : α → β} {as bs : List α} :
    as.map f = bs.map f ↔ List.Forall₂ (fun a b => f a = f b) as bs := by
  rw [← List.forall₂_eq_eq_eq, List.forall₂_map_left_iff, List.forall₂_map_right_iff]

namespace Export
variable {l : Layout} {depth : Nat}

theorem value_eq_iff {v w : Value} : value v = value w ↔ v.Alike w := by
  have hnull {u : Value} (h : u.isFinite = false) : value u = "null".toList := by
    rw [value, h]
    rfl
  have hnone : Value.ofNumeral? "null".toList = none := rfl
  constructor
  · intro h
    have hread := congrArg Value.ofNumeral? h
    cases hv : v.isFinite <;> cases hw : w.isFinite
    · exact .inr ⟨hv, hw⟩
    · rw [hnull hv, hnone, ofNumeral?_value hw] at hread
      cases hread
    · rw [ofNumeral?_value hv, hnull hw, hnone] at hread
      cases hread
    · rw [ofNumeral?_value hv, ofNumeral?_value hw, Option.some_inj] at hread
      exact .inl ⟨hv, hw, congrArg Value.bits hread⟩
  · rintro (⟨-, -, hbits⟩ | ⟨hv, hw⟩)
    · cases v
      cases w
      exact congrArg (fun bits => value ⟨bits⟩) hbits
    · rw [hnull hv, hnull hw]

theorem sample_eq_iff {r s : Sample} : sample l depth r = sample l depth s ↔ r.Alike s := by
  rw [sample, sample, array_inj (List.forall_mem_map.2 fun v _ => isItem_value v)
    (List.forall_mem_map.2 fun v _ => isItem_value v), Sample.values, Sample.values, List.map_map, List.map_map,
    List.map_inj_left]
  simp only [Function.comp_apply, value_eq_iff]
  refine ⟨fun h metric => h metric ?_, fun h metric _ => h metric⟩
  cases metric <;> decide

theorem key_eq_iff {k k' : Key} : key l depth k = key l depth k' ↔ k = k' := by
  refine ⟨fun h => Setting.ext_get fun p => ?_, fun h => h ▸ rfl⟩
  rw [key, key, object_inj (areMembers_key k) (areMembers_key k'), List.map_inj_left] at h
  exact UInt32.toNat_inj.1 (Text.toDigits_injective (Prod.mk.inj (h p p.mem_all)).2)

theorem samples_eq_iff {ms ms' : Option Matrix} : samples l depth ms = samples l depth ms' ↔
    Option.Rel (fun m n => List.Forall₂ Sample.Alike m.rows n.rows) ms ms' := by
  have hnull (ms : List (String × List Char)) : "null".toList ≠ object l depth ms := by
    obtain ⟨r, hr⟩ := object_append l depth ms []
    rw [← List.append_nil (object l depth ms), hr]
    exact fun h => absurd (List.cons.inj h).1 (by decide)
  cases ms with
  | none =>
    cases ms' with
    | none => exact iff_of_true rfl .none
    | some n => exact iff_of_false (hnull _) nofun
  | some m =>
    cases ms' with
    | none => exact iff_of_false (hnull _).symm nofun
    | some n =>
      rw [samples, samples, object_inj (areMembers_rows m.rows) (areMembers_rows n.rows)]
      simp only [List.cons.injEq, Prod.mk.injEq, true_and, and_true]
      rw [array_inj (List.forall_mem_map.2 fun r _ => isItem_sample r)
        (List.forall_mem_map.2 fun r _ => isItem_sample r), map_eq_map_iff]
      simp only [sample_eq_iff]
      constructor
      · exact fun h => .some h
      · rintro ⟨h⟩
        exact h

theorem record_eq_iff {r s : Record} : record l depth r = record l depth s ↔ r.Alike s := by
  rw [record, record, object_inj (areMembers_record r) (areMembers_record s)]
  simp only [List.cons.injEq, Prod.mk.injEq, true_and, and_true, key_eq_iff, samples_eq_iff]
  exact ⟨fun h => ⟨h.1, h.2⟩, fun h => ⟨h.key, h.samples⟩⟩

/-- Lists of records have the same text exactly if they are alike record by record. So the trials of a text that
have no samples can be told from those whose attempts all failed. -/
theorem records_eq_iff (l : Layout) (rs ss : List Record) :
    (records l rs = records l ss ↔ List.Forall₂ Record.Alike rs ss) ∧
    (records l rs = records l ss → rs.map Record.isFailed = ss.map Record.isFailed) := by
  have halike : records l rs = records l ss ↔ List.Forall₂ Record.Alike rs ss := by
    rw [records, records, array_inj (List.forall_mem_map.2 fun r _ => isItem_record r)
      (List.forall_mem_map.2 fun s _ => isItem_record s), map_eq_map_iff]
    simp only [record_eq_iff]
  exact ⟨halike, fun h => map_eq_map_iff.2 ((halike.1 h).imp fun _ _ => Record.Alike.isFailed_eq)⟩

end Export
end Campaign
