import Mathlib
import Campaign.Proofs.Trials

/-!
# One insert

An insert into a keyed table looks at the cell of its trial, whatever the other rows hold. It fails if that
cell keeps no samples, or if they are to be merged and cannot be read, and then the store stays as it was.
Otherwise the cell `Becomes` what the policy asks for, and no other row changes (`insert_spec`).
-/

namespace Campaign

/-- The cell is of a kind that samples are kept in, read or not. -/
def Cell.KeepsSamples (cell : Cell) : Prop :=
  cell = .absent ∨ ∃ bytes, cell = .blob bytes

/-- Samples cannot be written to a trial with such a cell. -/
def Codec.Refuses (c : Codec) (policy : Policy) (old : Option Cell) : Prop :=
  ∃ cell, old = some cell ∧
    (¬cell.KeepsSamples ∨ policy = .merge ∧ ∃ bytes, cell = .blob bytes ∧ ∀ m, c.decode bytes ≠ .ok m)

/-- What comes of samples that are written to a trial, and the cell that it has then. -/
inductive Codec.Becomes (c : Codec) (samples : Option Matrix) : Policy → Option Cell → Outcome → Cell → Prop
  | inserted {policy : Policy} : Becomes c samples policy none .inserted (c.cell samples)
  | ignored {cell : Cell} (h : cell.KeepsSamples) : Becomes c samples .ignore (some cell) .ignored cell
  | replaced {cell : Cell} (h : cell.KeepsSamples) :
    Becomes c samples .replace (some cell) .replaced (c.cell samples)
  | merged {cell : Cell} {old : Option Matrix} (h : cell.Holds c old) :
    Becomes c samples .merge (some cell) .merged (c.cell (Matrix.merge old samples))

theorem Cell.keepsSamples_iff {cell : Cell} : cell.KeepsSamples ↔ ∃ bytes, cell.stored 0 = .ok bytes := by
  cases cell <;> simp [KeepsSamples, stored]

namespace Codec
variable {c : Codec} {samples : Option Matrix} {policy : Policy} {old : Option Cell} {outcome : Outcome}
  {cell : Cell}

theorem exists_holds_iff : (∃ samples, cell.Holds c samples) ↔
    cell.KeepsSamples ∧ ¬∃ bytes, cell = .blob bytes ∧ ∀ m, c.decode bytes ≠ .ok m := by
  constructor
  · rintro ⟨_, _ | hm⟩
    · exact ⟨.inl rfl, by simp⟩
    · refine ⟨.inr ⟨_, rfl⟩, ?_⟩
      rintro ⟨_, he, hnone⟩
      obtain rfl := Cell.blob.inj he
      exact hnone _ hm
  · rintro ⟨rfl | ⟨bytes, rfl⟩, hread⟩
    · exact ⟨none, .absent⟩
    · obtain ⟨m, hm⟩ : ∃ m, c.decode bytes = .ok m := by
        by_contra hnone
        exact hread ⟨bytes, rfl, fun m hm => hnone ⟨m, hm⟩⟩
      exact ⟨some m, .blob hm⟩

theorem Becomes.outcome_eq (h : c.Becomes samples policy old outcome cell) :
    outcome = if old = none then .inserted else policy.outcome := by
  cases h <;> rfl

/-- Samples are written unless they are refused. -/
theorem exists_becomes_iff (samples : Option Matrix) :
    (∃ outcome cell, c.Becomes samples policy old outcome cell) ↔
    ¬c.Refuses policy old := by
  cases old with
  | none =>
    refine iff_of_true ⟨_, _, .inserted⟩ ?_
    rintro ⟨cell, he, -⟩
    cases he
  | some cell =>
    have hrefuses : ¬c.Refuses policy (some cell) ↔ cell.KeepsSamples ∧
        (policy = .merge → ¬∃ bytes, cell = .blob bytes ∧ ∀ m, c.decode bytes ≠ .ok m) := by
      simp [Refuses]
    rw [hrefuses]
    constructor
    · rintro ⟨_, _, h⟩
      cases h with
      | ignored h => exact ⟨h, Policy.noConfusion⟩
      | replaced h => exact ⟨h, Policy.noConfusion⟩
      | merged h => exact (exists_holds_iff.1 ⟨_, h⟩).imp_right fun hread _ => hread
    · rintro ⟨hkeeps, hread⟩
      cases policy with
      | ignore => exact ⟨_, _, .ignored hkeeps⟩
      | replace => exact ⟨_, _, .replaced hkeeps⟩
      | merge =>
        obtain ⟨old, h⟩ := exists_holds_iff.2 ⟨hkeeps, hread rfl⟩
        exact ⟨_, _, .merged h⟩

end Codec

namespace Table
variable {t : Table} {k : Key} {cell : Cell}

theorem filter_not_hasKey_set : (t.set k cell).rows.filter (fun row => !row.hasKey k.integers)
    = t.rows.filter fun row => !row.hasKey k.integers := by
  unfold set
  split_ifs
  · have hkeys : (fun row => !Row.hasKey k.integers row) ∘ Row.overwrite k.integers cell
        = fun row => !Row.hasKey k.integers row := funext fun _ => by simp
    have hrow : ∀ row ∈ t.rows.filter (fun row => !row.hasKey k.integers),
        row.overwrite k.integers cell = row := fun row hm => by
      rw [Row.overwrite, if_neg (by simpa using (List.mem_filter.1 hm).2)]
    rw [overwrite, List.filter_map, hkeys, List.map_congr_left hrow, List.map_id']
  · simp [extend]

theorem Keyed.filter_hasKey_set (h : t.Keyed) :
    (t.set k cell).rows.filter (Row.hasKey k.integers) = [.ofIntegers k.integers cell] := by
  rw [h.set.filter_hasKey, h.find?_set, if_pos rfl]; rfl

theorem count_set : (t.set k cell).count = t.count + if t.find? k.integers = none then 1 else 0 := by
  unfold set
  cases t.find? k.integers <;> simp [count, extend, overwrite]

end Table

namespace Store
variable {s s' : Store} {policy : Policy} {r : Record} {outcome : Outcome}

theorem verdict_eq_ok (hw : s.isWritable = true) {old : Option Cell} {samples : Option Matrix} {cell : Cell} :
    s.verdict policy old samples = .ok (outcome, cell) ↔ s.codec.Becomes samples policy old outcome cell := by
  constructor
  · intro h
    cases old with
    | none =>
      obtain ⟨-, rfl, rfl⟩ := verdict_none_eq_ok.1 h
      exact .inserted
    | some old =>
      cases policy with
      | ignore =>
        obtain ⟨hs, rfl, rfl⟩ := verdict_ignore_eq_ok.1 h
        exact .ignored (Cell.keepsSamples_iff.2 hs)
      | replace =>
        obtain ⟨hs, -, rfl, rfl⟩ := verdict_replace_eq_ok.1 h
        exact .replaced (Cell.keepsSamples_iff.2 hs)
      | merge =>
        obtain ⟨_, hold, -, rfl, rfl⟩ := verdict_merge_eq_ok.1 h
        exact .merged hold
  · rintro (_ | hs | hs | hold)
    · exact verdict_none_eq_ok.2 ⟨hw, rfl, rfl⟩
    · exact verdict_ignore_eq_ok.2 ⟨Cell.keepsSamples_iff.1 hs, rfl, rfl⟩
    · exact verdict_replace_eq_ok.2 ⟨Cell.keepsSamples_iff.1 hs, hw, rfl, rfl⟩
    · exact verdict_merge_eq_ok.2 ⟨_, hold, hw, rfl, rfl⟩

theorem insert_eq_ok_iff (h : s.table.Keyed) (hw : s.isWritable = true) :
    s.insert policy r = (.ok outcome, s') ↔ ∃ cell,
      s.codec.Becomes r.samples policy (s.table.find? r.key.integers) outcome cell ∧ s' = s.set r.key cell := by
  rw [insert_eq_ok, write_eq_ok h]
  exact exists_congr fun cell => and_congr_left' (verdict_eq_ok hw)

theorem exists_insert_eq_error (h : s.table.Keyed) (hw : s.isWritable = true) :
    (∃ fault, (s.insert policy r).1 = .error fault) ↔
      s.codec.Refuses policy (s.table.find? r.key.integers) := by
  rw [← not_iff_not, ← Codec.exists_becomes_iff r.samples]
  constructor
  · intro hok
    rcases hi : s.insert policy r with ⟨_ | outcome, s'⟩
    · exact absurd ⟨_, by rw [hi]⟩ hok
    · obtain ⟨cell, hcell, -⟩ := (insert_eq_ok_iff h hw).1 hi
      exact ⟨outcome, cell, hcell⟩
  · rintro ⟨outcome, cell, hcell⟩ ⟨fault, hfault⟩
    rw [(insert_eq_ok_iff h hw).2 ⟨cell, hcell, rfl⟩] at hfault
    cases hfault

theorem find?_settle (h : s.table.Keyed) {k : Key} (given : Except Fault (Outcome × Cell)) :
    (s.settle k given).table.find? k.integers
      = match given with
        | .ok (_, cell) => some cell
        | .error _ => s.table.find? k.integers := by
  cases given with
  | error fault => rfl
  | ok given => exact h.find?_set.trans (if_pos rfl)

/-- An insert of a record fails if the cell of its trial refuses the samples, and leaves the store as it was
then. Otherwise the cell becomes what the policy asks for, in the only row of the trial, the other rows stay
as they were, and there is one row more if the trial is new. What the other rows hold does not matter. -/
theorem insert_spec (s : Store) (h : s.table.Keyed) (hw : s.isWritable = true) (policy : Policy) (r : Record) :
    let old := s.table.find? r.key.integers
    ((∃ fault, (s.insert policy r).1 = .error fault) ↔ s.codec.Refuses policy old) ∧
    (∀ fault s', s.insert policy r = (.error fault, s') → s' = s) ∧
    (∀ outcome s', s.insert policy r = (.ok outcome, s') →
      (outcome = .inserted ↔ old = none) ∧ (old ≠ none → outcome = policy.outcome) ∧
      (∃ cell, s.codec.Becomes r.samples policy old outcome cell ∧
        s'.table.rows.filter (Row.hasKey r.key.integers) = [.ofIntegers r.key.integers cell]) ∧
      s'.table.rows.filter (fun row => !row.hasKey r.key.integers)
        = s.table.rows.filter (fun row => !row.hasKey r.key.integers) ∧
      s'.count = s.count + (if outcome = .inserted then 1 else 0) ∧
      s' = { s with table := s'.table } ∧ s'.table.Keyed) ∧
    ∀ s₂ : Store, s₂.table.Keyed → s₂.isWritable = true → s₂.codec = s.codec →
      s₂.table.find? r.key.integers = old →
        (s₂.insert policy r).1 = (s.insert policy r).1 ∧
        (s₂.insert policy r).2.table.find? r.key.integers
          = (s.insert policy r).2.table.find? r.key.integers := by
  intro old
  refine ⟨exists_insert_eq_error h hw, fun fault s' hi => (insert_eq_error.1 hi).2, fun outcome s' hi => ?_,
    fun s₂ h₂ hw₂ hc hold => ?_⟩
  · obtain ⟨cell, hcell, rfl⟩ := (insert_eq_ok_iff h hw).1 hi
    have hinserted : outcome = .inserted ↔ old = none := by
      rw [hcell.outcome_eq]
      split_ifs with hnone
      · exact iff_of_true rfl hnone
      · exact iff_of_false (by cases policy <;> simp [Policy.outcome]) hnone
    refine ⟨hinserted, fun hne => by rw [hcell.outcome_eq, if_neg hne], ⟨cell, hcell, h.filter_hasKey_set⟩,
      Table.filter_not_hasKey_set, ?_, rfl, h.set⟩
    simp only [hinserted]
    exact Table.count_set
  · have hverdict : s₂.verdict policy old r.samples = s.verdict policy old r.samples := by
      simp only [verdict, put, hc, hw, hw₂]
    rw [insert_eq h, insert_eq h₂, hold, hverdict]
    refine ⟨rfl, ?_⟩
    dsimp only
    rw [find?_settle h, find?_settle h₂, hold]

/-- Samples put in the place of bytes that no codec has written, beside a cell that keeps none and refuses
any. -/
theorem insert_planted :
    let t : Table := (Table.empty.set ⟨1, 1, 1, 1⟩ (.blob [0])).set ⟨2, 2, 2, 2⟩ (.integer 7)
    let s : Store := { codec := .blob, table := t }
    t.Keyed ∧ (∃ fault, (s.insert .ignore ⟨⟨2, 2, 2, 2⟩, none⟩).1 = .error fault) ∧
    ∃ s', s.insert .replace ⟨⟨1, 1, 1, 1⟩, none⟩ = (.ok .replaced, s') ∧ s'.count = 2 ∧
      s'.table.rows.filter (fun row => !row.hasKey ⟨1, 1, 1, 1⟩) = [.ofIntegers ⟨2, 2, 2, 2⟩ (.integer 7)] := by
  intro t s
  have h : t.Keyed := Table.keyed_empty.set.set
  obtain ⟨hfails, -⟩ := insert_spec s h rfl .ignore ⟨⟨2, 2, 2, 2⟩, none⟩
  obtain ⟨-, -, hok, -⟩ := insert_spec s h rfl .replace ⟨⟨1, 1, 1, 1⟩, none⟩
  obtain ⟨-, -, -, hothers, hcount, -⟩ := hok .replaced (s.insert .replace ⟨⟨1, 1, 1, 1⟩, none⟩).2 rfl
  exact ⟨h, hfails.2 ⟨.integer 7, rfl, .inl (by simp [Cell.KeepsSamples])⟩, _, rfl, hcount, hothers⟩

end Store
end Campaign
