import Mathlib
import Campaign.Proofs.Schema
import Campaign.Store.Insert

/-!
# Batches

`Store.insertEach` inserts records one after another, each write on its own. A batch either comes to
the same store, with a tally of the same outcomes, or meets the same fault and leaves the store as it
was (`insertMany_spec`). Nothing is asked of the rows: the store may hold cells that no store writes.
-/

namespace Campaign

namespace Tally

theorem foldl_add (t : Tally) (os : List Outcome) :
    os.foldl add t = ⟨t.inserted + os.count .inserted, t.ignored + os.count .ignored,
      t.replaced + os.count .replaced, t.merged + os.count .merged⟩ := by
  induction os generalizing t with
  | nil => rfl
  | cons o os ih => rw [List.foldl_cons, ih]; cases o <;> simp [add, Nat.add_assoc, Nat.add_comm 1]

/-- The tally counts how often each outcome is in the list. -/
theorem ofOutcomes_eq (os : List Outcome) :
    ofOutcomes os = ⟨os.count .inserted, os.count .ignored, os.count .replaced, os.count .merged⟩ := by
  simp [ofOutcomes, foldl_add]

theorem total_add (t : Tally) (o : Outcome) : (t.add o).total = t.total + 1 := by
  cases o <;> simp only [add, total, conflicts] <;> omega

theorem total_foldl_add (t : Tally) (os : List Outcome) : (os.foldl add t).total = t.total + os.length := by
  induction os generalizing t with
  | nil => rfl
  | cons o os ih => rw [List.foldl_cons, ih, total_add, List.length_cons]; omega

theorem total_ofOutcomes (os : List Outcome) : (ofOutcomes os).total = os.length := by
  rw [ofOutcomes, total_foldl_add]; exact Nat.zero_add _

end Tally

namespace Table
variable {t t' : Table}

theorem add_of_keepsRows (hk : t.schema.KeepsRows) {row : Row} (h : t.add row = .ok t') :
    t'.schema = t.schema ∧ t'.count = t.count + 1 := by
  unfold add addWith at h
  cases hs : t.schema.settle none true ⟨t.rows, []⟩ row with
  | error fault => rw [hs] at h; cases h
  | ok settled =>
    obtain ⟨row', rfl⟩ := hk.settle_eq hs
    rw [hs] at h
    obtain rfl := Except.ok.inj h
    exact ⟨rfl, by simp [count]⟩

theorem length_updateRows {s : Schema} (hk : s.KeepsRows) {key : Setting Int} {cell : Cell} {fuel : Nat}
    {done rest rows : List Row} (h : updateRows s key cell fuel done rest = .ok rows) :
    rows.length = done.length + rest.length := by
  induction fuel generalizing done rest with
  | zero => simp only [updateRows, Except.ok.injEq] at h; simp [← h]
  | succ fuel ih =>
    cases rest with
    | nil => simp only [updateRows, Except.ok.injEq] at h; simp [← h]
    | cons row rest =>
      rw [updateRows] at h
      split_ifs at h
      · split at h
        · cases h
        · have := ih h; simp at this ⊢; omega
        · next hs =>
          obtain ⟨row', he⟩ := hk.settle_eq hs
          obtain ⟨-, rfl⟩ := Prod.mk.inj (Option.some.inj he)
          have := ih h
          simp at this ⊢; omega
      · have := ih h; simp at this ⊢; omega

theorem update_of_keepsRows (hk : t.schema.KeepsRows) {key : Setting Int} {cell : Cell}
    (h : t.update key cell = .ok t') : t'.schema = t.schema ∧ t'.count = t.count := by
  unfold update at h
  cases hu : updateRows t.schema key cell t.rows.length [] t.rows with
  | error fault => rw [hu] at h; cases h
  | ok rows =>
    rw [hu] at h
    obtain rfl := Except.ok.inj h
    exact ⟨rfl, by simpa [count] using length_updateRows hk hu⟩

end Table

namespace Store
variable {s s' : Store} {policy : Policy} {r : Record} {rs : List Record} {outcome : Outcome}
  {outcomes : List Outcome} {fault : Fault}

/-- Inserts records one after another, up to the first that fails. -/
def insertEach (policy : Policy) : Store → List Record → Written (List Outcome)
  | s, [] => (.ok [], s)
  | s, r :: rs =>
    match s.insert policy r with
    | (.error fault, s) => (.error fault, s)
    | (.ok outcome, s) =>
      match insertEach policy s rs with
      | (.error fault, s) => (.error fault, s)
      | (.ok outcomes, s) => (.ok (outcome :: outcomes), s)

/-! ### What a write does -/

theorem insert_eq_ok : s.insert policy r = (.ok outcome, s') ↔ s.write policy r = .ok (outcome, s') := by
  unfold insert
  cases s.write policy r <;> simp [commit, Prod.ext_iff]

theorem insert_eq_error :
    s.insert policy r = (.error fault, s') ↔ s.write policy r = .error fault ∧ s' = s := by
  unfold insert
  cases s.write policy r <;> simp [commit, eq_comm]

/-- Only a record with a new key is planned as a row to be added. -/
theorem plan_cases {change : Change} (h : s.plan policy r = .ok (outcome, change)) :
    (outcome = .inserted ∧ ∃ row, change = .add row) ∨
    (outcome = policy.outcome ∧ ∀ row, change ≠ .add row) := by
  unfold plan at h
  split at h
  · obtain ⟨rfl, rfl⟩ := Prod.mk.inj (Except.ok.inj h)
    exact .inl ⟨rfl, _, rfl⟩
  · split at h
    · cases h
    next bytes _ =>
    cases hr : s.resolve policy r bytes with
    | error fault => rw [hr] at h; cases h
    | ok change' =>
      rw [hr] at h
      obtain ⟨rfl, rfl⟩ := Prod.mk.inj (Except.ok.inj h)
      refine .inr ⟨rfl, ?_⟩
      rintro row rfl
      unfold resolve at hr
      split at hr
      · cases hr
      · cases hr
      · split at hr <;> cases hr

/-- A write adds one row if its outcome is `inserted`, and none otherwise. -/
theorem write_of_keepsRows (hk : s.table.schema.KeepsRows)
    (h : s.write policy r = .ok (outcome, s')) :
    s'.table.schema = s.table.schema ∧ s'.count = s.count + [outcome].count .inserted := by
  unfold write at h
  split at h
  · cases h
  next change hp =>
  cases hc : s.change change with
  | error fault => rw [hc] at h; cases h
  | ok s'' =>
    rw [hc] at h
    obtain ⟨rfl, rfl⟩ := Prod.mk.inj (Except.ok.inj h)
    unfold Store.change at hc
    split at hc
    · cases hc
    split at hc
    · cases hc
    next table ht =>
    obtain rfl := Except.ok.inj hc
    rcases plan_cases hp with ⟨rfl, row, rfl⟩ | ⟨rfl, hadd⟩
    · exact Table.add_of_keepsRows hk ht
    · have hn : [policy.outcome].count .inserted = 0 := by cases policy <;> rfl
      rw [hn]
      cases change with
      | nothing => obtain rfl := Except.ok.inj ht; exact ⟨rfl, rfl⟩
      | add row => exact absurd rfl (hadd row)
      | update key samples => exact Table.update_of_keepsRows hk ht

/-! ### Runs of writes -/

theorem writeAll_nil_eq_ok : s.writeAll policy [] = .ok (outcomes, s') ↔ outcomes = [] ∧ s' = s := by
  simp [writeAll, eq_comm]

theorem writeAll_cons_eq_ok :
    s.writeAll policy (r :: rs) = .ok (outcomes, s') ↔
      ∃ o s₁ os, s.write policy r = .ok (o, s₁) ∧ s₁.writeAll policy rs = .ok (os, s') ∧
        outcomes = o :: os := by
  rw [writeAll]
  cases s.write policy r with
  | error fault => simp
  | ok written =>
    obtain ⟨o, s₁⟩ := written
    dsimp only
    cases hrest : writeAll policy s₁ rs with
    | error fault => simp [hrest, Except.map]
    | ok rest =>
      obtain ⟨os, s₂⟩ := rest
      simp only [Except.map, Except.ok.injEq, Prod.mk.injEq]
      constructor
      · rintro ⟨rfl, rfl⟩; exact ⟨o, s₁, os, ⟨rfl, rfl⟩, hrest, rfl⟩
      · rintro ⟨o, s₁, os, ⟨rfl, rfl⟩, h, rfl⟩
        rw [hrest] at h
        obtain ⟨rfl, rfl⟩ := Prod.mk.inj (Except.ok.inj h)
        exact ⟨rfl, rfl⟩

theorem writeAll_cons_eq_error :
    s.writeAll policy (r :: rs) = .error fault ↔
      s.write policy r = .error fault ∨
      ∃ o s₁, s.write policy r = .ok (o, s₁) ∧ s₁.writeAll policy rs = .error fault := by
  rw [writeAll]
  cases s.write policy r with
  | error fault => simp
  | ok written =>
    obtain ⟨o, s₁⟩ := written
    dsimp only
    cases hrest : writeAll policy s₁ rs with
    | error fault =>
      simp only [Except.map, Except.error.injEq, reduceCtorEq, false_or, Except.ok.injEq, Prod.mk.injEq]
      exact ⟨fun h => ⟨o, s₁, ⟨rfl, rfl⟩, h ▸ hrest⟩,
        fun ⟨_, _, ⟨rfl, rfl⟩, h⟩ => Except.error.inj (hrest.symm.trans h)⟩
    | ok rest => simp [hrest, Except.map]

theorem insertEach_eq_ok : s.insertEach policy rs = (.ok outcomes, s') ↔
    s.writeAll policy rs = .ok (outcomes, s') := by
  induction rs generalizing s outcomes with
  | nil => simp [insertEach, writeAll]
  | cons r rs ih =>
    rw [writeAll_cons_eq_ok, insertEach]
    constructor
    · intro h
      split at h
      · cases h
      next o s₁ hw =>
      split at h
      · cases h
      next os s₂ hrest =>
      simp only [Prod.mk.injEq, Except.ok.injEq] at h
      obtain ⟨rfl, rfl⟩ := h
      exact ⟨o, s₁, os, insert_eq_ok.1 hw, ih.1 hrest, rfl⟩
    · rintro ⟨o, s₁, os, hw, hrest, rfl⟩
      rw [insert_eq_ok.2 hw]
      simp only [ih.2 hrest]

theorem writeAll_of_insertEach_error (h : s.insertEach policy rs = (.error fault, s')) :
    s.writeAll policy rs = .error fault := by
  induction rs generalizing s with
  | nil => cases h
  | cons r rs ih =>
    rw [writeAll_cons_eq_error]
    rw [insertEach] at h
    split at h
    next fault' s₁ hw =>
      simp only [Prod.mk.injEq, Except.error.injEq] at h
      exact .inl (h.1 ▸ (insert_eq_error.1 hw).1)
    next o s₁ hw =>
      split at h
      next fault' s₂ hrest =>
        simp only [Prod.mk.injEq, Except.error.injEq] at h
        obtain ⟨rfl, rfl⟩ := h
        exact .inr ⟨o, s₁, insert_eq_ok.1 hw, ih hrest⟩
      · cases h

theorem length_writeAll (h : s.writeAll policy rs = .ok (outcomes, s')) : outcomes.length = rs.length := by
  induction rs generalizing s outcomes with
  | nil => rw [(writeAll_nil_eq_ok.1 h).1]; rfl
  | cons r rs ih =>
    obtain ⟨o, s₁, os, -, hrest, rfl⟩ := writeAll_cons_eq_ok.1 h
    simp [ih hrest]

theorem count_writeAll (hk : s.table.schema.KeepsRows) (h : s.writeAll policy rs = .ok (outcomes, s')) :
    s'.count = s.count + outcomes.count .inserted := by
  induction rs generalizing s outcomes with
  | nil => obtain ⟨rfl, rfl⟩ := writeAll_nil_eq_ok.1 h; rfl
  | cons r rs ih =>
    obtain ⟨o, s₁, os, hw, hrest, rfl⟩ := writeAll_cons_eq_ok.1 h
    obtain ⟨hs, hc⟩ := write_of_keepsRows hk hw
    rw [ih (hs ▸ hk) hrest, hc, Nat.add_assoc, ← List.count_append, List.singleton_append]

/-- A batch is the sequence of its inserts, or nothing. If the records can be inserted one after
another, the batch leaves the same store and its tally counts their outcomes; the rows of a table that
a store has made grow by those that are new. Otherwise the batch meets the fault of the first record
that cannot be inserted, and the store stays as it was. -/
theorem insertMany_spec (s : Store) (policy : Policy) (rs : List Record) :
    Schema.standard.KeepsRows ∧
    (∀ outcomes s', s.insertEach policy rs = (.ok outcomes, s') →
      ∃ tally, s.insertMany policy rs = (.ok tally, s') ∧
        tally = ⟨outcomes.count .inserted, outcomes.count .ignored, outcomes.count .replaced,
          outcomes.count .merged⟩ ∧
        outcomes.length = rs.length ∧ tally.total = rs.length ∧
        (s.table.schema.KeepsRows → s'.count = s.count + tally.inserted)) ∧
    ∀ fault s', s.insertEach policy rs = (.error fault, s') → s.insertMany policy rs = (.error fault, s) := by
  refine ⟨Schema.keepsRows_standard, fun outcomes s' h => ?_, fun fault s' h => ?_⟩
  · have hw := insertEach_eq_ok.1 h
    have hl := length_writeAll hw
    refine ⟨.ofOutcomes outcomes, by rw [insertMany, hw]; rfl, Tally.ofOutcomes_eq _, hl, ?_, fun hk => ?_⟩
    · rw [Tally.total_ofOutcomes, hl]
    · rw [count_writeAll hk hw, Tally.ofOutcomes_eq]
  · rw [insertMany, writeAll_of_insertEach_error h]; rfl

/-- A key inserted and merged in one batch, in a store with a cell that no codec has written; a third
record, with the key of that cell, undoes both. -/
theorem insertMany_planted :
    let s : Store := { codec := .blob, table := ⟨.standard, [.ofIntegers ⟨1, 1, 1, 1⟩ (.blob [0])]⟩ }
    let r : Record := ⟨⟨2, 2, 2, 2⟩, none⟩
    (∃ s', s.insertMany .merge [r, r] = (.ok ⟨1, 0, 0, 1⟩, s') ∧ s'.count = s.count + 1) ∧
    s.insertMany .merge [r, r, ⟨⟨1, 1, 1, 1⟩, none⟩] = (.error (.blob (.tooShort 1)), s) := by
  intro s r
  obtain ⟨hk, hok, -⟩ := insertMany_spec s .merge [r, r]
  obtain ⟨tally, h, rfl, -, -, hc⟩ := hok [.inserted, .merged] (s.insertEach .merge [r, r]).2 (by rfl)
  refine ⟨⟨_, h, hc hk⟩, ?_⟩
  exact (insertMany_spec s .merge [r, r, ⟨⟨1, 1, 1, 1⟩, none⟩]).2.2 _
    (s.insertEach .merge [r, r, ⟨⟨1, 1, 1, 1⟩, none⟩]).2 (by rfl)

end Store
end Campaign
