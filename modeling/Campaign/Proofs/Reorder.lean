import Mathlib
import Campaign.Proofs.Trials

/-!
# Batches in another order

Only the order of the records of one key matters to a batch. Two batches with the same records of each key,
in the same order, succeed together and leave the same rows (`insertMany_reorder`), as the outcomes of a
trial and its cell come from its own records.
-/

namespace Campaign

/-- Lists in which each part, as `f` tells the parts, is the same. -/
theorem perm_of_filter_eq {α β : Type} [DecidableEq α] [DecidableEq β] {f : α → β} {l l' : List α}
    (h : ∀ b, (l.filter fun a => f a = b) = l'.filter fun a => f a = b) : l.Perm l' := by
  refine List.perm_iff_count.2 fun a => ?_
  have hpart (l : List α) : (l.filter fun a' => f a' = f a).count a = l.count a :=
    List.count_filter (by simp)
  rw [← hpart l, ← hpart l', h]

theorem Tally.ofOutcomes_perm {os os' : List Outcome} (h : os.Perm os') : ofOutcomes os = ofOutcomes os' := by
  simp only [ofOutcomes_eq, h.count_eq]

namespace Table.Keyed
variable {t : Table} {k k' : Key} {cell cell' : Cell}

theorem set_comm (h : t.Keyed) (hk : k ≠ k') :
    ((t.set k cell).set k' cell').rows.Perm ((t.set k' cell').set k cell).rows := by
  refine h.set.set.perm_of_find? h.set.set (fun l => ?_) fun row hr => ?_
  · simp only [h.find?_set, h.set.find?_set]
    split_ifs with h₁ h₂
    · exact absurd (h₂.symm.trans h₁) hk
    all_goals rfl
  · simp only [count_set_of_isStray hr]

end Table.Keyed

namespace Store
variable {s s' s₁ s₂ : Store} {policy : Policy} {r : Record} {rs rs' : List Record}
  {outcomes outcomes' : List Outcome} {tally : Tally}

theorem insertMany_eq_ok : s.insertMany policy rs = (.ok tally, s') ↔
    ∃ outcomes, s.writeAll policy rs = .ok (outcomes, s') ∧ tally = .ofOutcomes outcomes := by
  rw [insertMany]
  cases s.writeAll policy rs with
  | error fault => simp [Except.map, commit]
  | ok written =>
    obtain ⟨outcomes, s₁⟩ := written
    simp only [Except.map, commit, Prod.mk.injEq, Except.ok.injEq]
    constructor
    · rintro ⟨rfl, rfl⟩; exact ⟨outcomes, ⟨rfl, rfl⟩, rfl⟩
    · rintro ⟨_, ⟨rfl, rfl⟩, rfl⟩; exact ⟨rfl, rfl⟩

/-- An insert comes to the same after something has been done with another trial. -/
theorem insert_settle (h : s.table.Keyed) {k : Key} (hk : r.key ≠ k) (given : Except Fault (Outcome × Cell))
    (policy : Policy) : (s.settle k given).insert policy r =
      ((s.insert policy r).1,
        (s.settle k given).settle r.key (s.verdict policy (s.table.find? r.key.integers) r.samples)) := by
  cases given with
  | error fault => rw [settle, insert_eq h]
  | ok given =>
    have hverdict (old : Option Cell) (samples : Option Matrix) :
        (s.set k given.2).verdict policy old samples = s.verdict policy old samples := rfl
    have hfind : (s.set k given.2).table.find? r.key.integers = s.table.find? r.key.integers := by
      rw [set, h.find?_set, if_neg hk]
    rw [settle, insert_eq h.set, insert_eq h, hverdict, hfind]

theorem settle_comm (h : s.table.Keyed) {k k' : Key} (hk : k ≠ k') (given given' : Except Fault (Outcome × Cell)) :
    ((s.settle k given).settle k' given').table.rows.Perm ((s.settle k' given').settle k given).table.rows := by
  cases given with
  | error fault => exact .rfl
  | ok given =>
    cases given' with
    | error fault => exact .rfl
    | ok given' => exact h.set_comm hk

theorem perm_of_outcomesOf (hl : rs.length = outcomes.length) (hl' : rs'.length = outcomes'.length)
    (h : ∀ k, outcomesOf k rs outcomes = outcomesOf k rs' outcomes') : outcomes.Perm outcomes' := by
  -- paired with their keys, the outcomes can be counted key by key
  have hzip : ((rs.map Record.key).zip outcomes).Perm ((rs'.map Record.key).zip outcomes') := by
    refine List.perm_iff_count.2 fun ⟨k, o⟩ => ?_
    have hown (rs : List Record) (outcomes : List Outcome) :
        (outcomesOf k rs outcomes).count o = ((rs.map Record.key).zip outcomes).count (k, o) := by
      rw [outcomesOf, List.count, List.countP_map, List.countP_filter]
      exact List.countP_congr fun e _ => by simp [Prod.ext_iff, and_comm]
    rw [← hown, ← hown, h k]
  have hsnd := hzip.map Prod.snd
  rwa [List.map_snd_zip (by simp [hl]), List.map_snd_zip (by simp [hl'])] at hsnd

theorem exists_writeAll_of_filter_eq (h : s.table.Keyed)
    (hk : ∀ k, (rs.filter fun r => r.key = k) = rs'.filter fun r => r.key = k)
    (hw : s.writeAll policy rs = .ok (outcomes, s₁)) :
    ∃ outcomes' s₂, s.writeAll policy rs' = .ok (outcomes', s₂) := by
  refine exists_writeAll h fun k => ?_
  rw [Record.samplesOf, ← hk, ← Record.samplesOf, (writeAll_spec h hw).trials k]
  exact ⟨_, rfl⟩

/-- Two batches with the same records of each key, in the same order, succeed together, and then have the
same tally and leave the same rows. Inserts of two trials, one of which may fail, come to the same in either
order. -/
theorem insertMany_reorder (h : s.table.Keyed) :
    (∀ policy (rs rs' : List Record), (∀ k, (rs.filter fun r => r.key = k) = rs'.filter fun r => r.key = k) →
      rs.Perm rs' ∧
      ((∃ tally s₁, s.insertMany policy rs = (.ok tally, s₁)) ↔
        ∃ tally s₂, s.insertMany policy rs' = (.ok tally, s₂)) ∧
      ∀ tally s₁ tally' s₂, s.insertMany policy rs = (.ok tally, s₁) →
        s.insertMany policy rs' = (.ok tally', s₂) →
          tally = tally' ∧ s₁.table.schema = s₂.table.schema ∧ s₁.table.rows.Perm s₂.table.rows) ∧
    ∀ policy policy' (r r' : Record), r.key ≠ r'.key →
      ((s.insert policy r).2.insert policy' r').1 = (s.insert policy' r').1 ∧
      ((s.insert policy' r').2.insert policy r).1 = (s.insert policy r).1 ∧
      ((s.insert policy r).2.insert policy' r').2.table.rows.Perm
        ((s.insert policy' r').2.insert policy r).2.table.rows := by
  refine ⟨fun policy rs rs' hk => ⟨perm_of_filter_eq hk, ⟨?_, ?_⟩, ?_⟩, fun policy policy' r r' hne => ?_⟩
  · rintro ⟨tally, s₁, hi⟩
    obtain ⟨outcomes, hw, -⟩ := insertMany_eq_ok.1 hi
    obtain ⟨outcomes', s₂, hw'⟩ := exists_writeAll_of_filter_eq h hk hw
    exact ⟨_, s₂, insertMany_eq_ok.2 ⟨outcomes', hw', rfl⟩⟩
  · rintro ⟨tally, s₂, hi⟩
    obtain ⟨outcomes, hw, -⟩ := insertMany_eq_ok.1 hi
    obtain ⟨outcomes', s₁, hw'⟩ := exists_writeAll_of_filter_eq h (fun k => (hk k).symm) hw
    exact ⟨_, s₁, insertMany_eq_ok.2 ⟨outcomes', hw', rfl⟩⟩
  · intro tally s₁ tally' s₂ hi hi'
    obtain ⟨outcomes, hw, rfl⟩ := insertMany_eq_ok.1 hi
    obtain ⟨outcomes', hw', rfl⟩ := insertMany_eq_ok.1 hi'
    have hl := writeAll_spec h hw
    have hl' := writeAll_spec h hw'
    have htrial (k : Key) : outcomesOf k rs outcomes = outcomesOf k rs' outcomes' ∧
        s₁.table.find? k.integers = s₂.table.find? k.integers := by
      have ht := hl.trials k
      rw [Record.samplesOf, hk k, ← Record.samplesOf, hl'.trials k] at ht
      exact (Prod.mk.inj (Except.ok.inj ht)).imp Eq.symm Eq.symm
    refine ⟨Tally.ofOutcomes_perm ?_, hl.keyed.schema.trans hl'.keyed.schema.symm, ?_⟩
    · exact perm_of_outcomesOf (length_writeAll hw).symm (length_writeAll hw').symm fun k => (htrial k).1
    · exact hl.keyed.perm_of_find? hl'.keyed (fun k => (htrial k).2) fun row hr =>
        (hl.strays row hr).trans (hl'.strays row hr).symm
  · rw [insert_eq h policy r, insert_eq h policy' r']
    dsimp only
    rw [insert_settle h hne.symm, insert_settle h hne, insert_eq h, insert_eq h]
    exact ⟨rfl, rfl, settle_comm h hne _ _⟩

/-- Two trials written in one order and in the other, beside a cell that no codec has written and a row
that is no trial's. A write to that cell fails, before another trial is written and after. -/
theorem insertMany_reorder_planted :
    let stray : Row := ⟨⟨.blob [], .integer 1, .integer 1, .integer 1⟩, .integer 7⟩
    let s : Store := ⟨.blob, ⟨.standard, [.ofIntegers ⟨1, 1, 1, 1⟩ (.blob [0]), stray]⟩, true⟩
    let r : Record := ⟨⟨2, 2, 2, 2⟩, none⟩
    let r' : Record := ⟨⟨3, 3, 3, 3⟩, none⟩
    let bad : Record := ⟨⟨1, 1, 1, 1⟩, none⟩
    s.table.Keyed ∧
    (∃ s₁ s₂, s.insertMany .merge [r, r', r] = (.ok ⟨2, 0, 0, 1⟩, s₁) ∧
      s.insertMany .merge [r', r, r] = (.ok ⟨2, 0, 0, 1⟩, s₂) ∧ s₁.table.rows.Perm s₂.table.rows) ∧
    (s.insert .merge bad).1 = .error (.blob (.tooShort 1)) ∧
    ((s.insert .merge r).2.insert .merge bad).1 = .error (.blob (.tooShort 1)) := by
  intro stray s r r' bad
  have hkeyed : s.table.Keyed := by
    have hrow (k : Key) : stray.hasKey k.integers = false := rfl
    refine ⟨rfl, fun row hm k hk => ?_, fun k => ?_⟩
    · rcases List.mem_cons.1 hm with rfl | hm
      · rw [← Row.hasKey_ofIntegers.1 hk]; rfl
      · obtain rfl := List.mem_singleton.1 hm
        exact absurd hk (by simp [hrow])
    · rw [List.countP_cons, List.countP_singleton, hrow, if_neg Bool.false_ne_true]
      split_ifs <;> decide
  obtain ⟨hreorder, hcommute⟩ := insertMany_reorder hkeyed
  have horder (k : Key) :
      ([r, r', r].filter fun r => r.key = k) = [r', r, r].filter fun r => r.key = k := by
    have hne : ¬(r.key = k ∧ r'.key = k) := fun ⟨h, h'⟩ => absurd (h.trans h'.symm) (by decide)
    by_cases hr : r.key = k <;> by_cases hr' : r'.key = k <;> simp_all
  have hfirst : ∃ s₁, s.insertMany .merge [r, r', r] = (.ok ⟨2, 0, 0, 1⟩, s₁) := ⟨_, rfl⟩
  have hbad : (s.insert .merge bad).1 = .error (.blob (.tooShort 1)) := rfl
  obtain ⟨-, hok, hsame⟩ := hreorder .merge [r, r', r] [r', r, r] horder
  obtain ⟨s₁, h₁⟩ := hfirst
  obtain ⟨tally, s₂, h₂⟩ := hok.1 ⟨_, _, h₁⟩
  obtain ⟨rfl, -, hp⟩ := hsame _ _ _ _ h₁ h₂
  exact ⟨hkeyed, ⟨s₁, s₂, h₁, h₂, hp⟩, hbad, (hcommute .merge .merge r bad (by decide)).1.trans hbad⟩

end Store
end Campaign
