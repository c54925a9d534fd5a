import Mathlib
import Campaign.Proofs.Batch
import Campaign.Proofs.Reading

/-!
# Trials apart from each other

A write to a keyed table looks at the cell of its trial and changes no other (`write_eq`): what comes of it
is a `verdict` on that cell and the new samples. So what a list of writes comes to can be told for each trial
from the writes to it (`writeAll_spec`), and the list succeeds if it does so for each trial
(`exists_writeAll`). The other rows may hold anything.
-/

namespace Campaign

/-- A row is stray if it has the key of no trial. -/
def Row.IsStray (row : Row) : Prop :=
  ∀ k : Key, row.hasKey k.integers ≠ true

namespace Table
variable {t t' : Table} {k k' : Key} {cell : Cell}

/-- The table with a cell for a trial, in the row that has its key or else in a new one. -/
def set (t : Table) (k : Key) (cell : Cell) : Table :=
  if (t.find? k.integers).isSome then t.overwrite k.integers cell else t.extend k.integers cell

theorem count_set_of_isStray {row : Row} (hr : row.IsStray) :
    (t.set k cell).rows.count row = t.rows.count row := by
  have hne : Row.ofIntegers k.integers cell ≠ row := by
    rintro rfl
    exact hr k (Row.hasKey_ofIntegers.2 rfl)
  unfold set
  split_ifs
  · rw [overwrite, List.count, List.countP_map]
    refine List.countP_congr fun old _ => ?_
    simp only [Function.comp_apply, beq_iff_eq, Row.overwrite]
    split_ifs with hk
    · constructor
      · rintro rfl
        exact absurd hk (hr k)
      · rintro rfl
        exact absurd hk (hr k)
    · rfl
  · rw [extend, List.count_append, List.count_singleton, beq_eq_false_iff_ne.2 hne]
    simp

namespace Keyed

theorem set (h : t.Keyed) : (t.set k cell).Keyed := by
  unfold Table.set
  split_ifs with hf
  · exact h.overwrite
  · exact h.extend (Option.not_isSome_iff_eq_none.1 hf)

theorem mem_overwrite (h : t.Keyed) {c : Cell} :
    .ofIntegers k'.integers c ∈ (t.overwrite k.integers cell).rows ↔
      if k' = k then c = cell ∧ (t.find? k.integers).isSome else .ofIntegers k'.integers c ∈ t.rows := by
  simp only [Table.overwrite, List.mem_map]
  constructor
  · rintro ⟨row, hm, he⟩
    have hkey : row.key = k'.integers.map .integer := by
      have hkey := congrArg Row.key he
      rwa [Row.key_overwrite] at hkey
    rw [Row.eq_ofIntegers hkey] at hm he
    rw [Row.overwrite_ofIntegers, Row.ofIntegers_inj] at he
    obtain ⟨-, rfl⟩ := he
    simp only [Key.integers_inj]
    split_ifs with hk
    · subst hk
      exact ⟨rfl, Option.isSome_iff_exists.2 ⟨_, h.find?_eq_some.2 hm⟩⟩
    · exact hm
  · split_ifs with hk
    · subst hk
      rintro ⟨rfl, hf⟩
      obtain ⟨c', hf⟩ := Option.isSome_iff_exists.1 hf
      exact ⟨_, h.find?_eq_some.1 hf, by rw [Row.overwrite_ofIntegers, if_pos rfl]⟩
    · intro hm
      exact ⟨_, hm, by rw [Row.overwrite_ofIntegers, if_neg (Key.integers_inj.not.2 hk)]⟩

theorem find?_set (h : t.Keyed) :
    (t.set k cell).find? k'.integers = if k' = k then some cell else t.find? k'.integers := by
  refine Option.ext fun c => ?_
  rw [h.set.find?_eq_some]
  by_cases hf : (t.find? k.integers).isSome
  · rw [Table.set, if_pos hf, h.mem_overwrite]
    split_ifs with hk
    · simp [hf, eq_comm]
    · rw [h.find?_eq_some]
  · rw [Table.set, if_neg hf, Table.extend, List.mem_append, List.mem_singleton, Row.ofIntegers_inj,
      Key.integers_inj, ← h.find?_eq_some]
    split_ifs with hk
    · rw [hk, Option.not_isSome_iff_eq_none.1 hf]; simp [eq_comm]
    · simp [hk]

/-- Putting the cell that is there already changes nothing. -/
theorem set_self (h : t.Keyed) (hf : t.find? k.integers = some cell) : t.set k cell = t := by
  have hrow : ∀ row ∈ t.rows, row.overwrite k.integers cell = row := by
    intro row hm
    rw [Row.overwrite]
    split_ifs with hk
    · rw [h.eq_of_hasKey hm hk hf, Row.ofIntegers]
    · rfl
  rw [Table.set, if_pos (by rw [hf]; rfl), Table.overwrite, List.map_congr_left hrow, List.map_id']

/-- Tables with the same cells for trials and the same stray rows have the same rows. -/
theorem perm_of_find? (h : t.Keyed) (h' : t'.Keyed) (hf : ∀ k : Key, t.find? k.integers = t'.find? k.integers)
    (hs : ∀ row : Row, row.IsStray → t.rows.count row = t'.rows.count row) : t.rows.Perm t'.rows := by
  -- a row with the key of a trial is there once if its samples are the cell of the trial, else not at all
  have hcount {t : Table} (h : t.Keyed) {row : Row} {k : Key} (hk : row.hasKey k.integers = true) :
      t.rows.count row = if t.find? k.integers = some row.samples ∧ row.key = k.integers.map .integer
        then 1 else 0 := by
    split_ifs with hm
    · rw [h.find?_eq_some, ← Row.eq_ofIntegers hm.2] at hm
      refine le_antisymm ?_ (List.count_pos_iff.2 hm.1)
      refine le_trans (List.countP_mono_left fun other _ ho => ?_) (h.distinct k)
      rw [beq_iff_eq.1 ho, hk]
    · refine List.count_eq_zero.2 fun hmem => hm ?_
      have hkey := h.integers row hmem k hk
      exact ⟨h.find?_eq_some.2 (Row.eq_ofIntegers hkey ▸ hmem), hkey⟩
  refine List.perm_iff_count.2 fun row => ?_
  by_cases hr : row.IsStray
  · exact hs row hr
  · obtain ⟨k, hk⟩ := not_forall.1 hr
    rw [not_not] at hk
    rw [hcount h hk, hcount h' hk, hf k]

end Keyed
end Table

namespace Record

/-- The samples of the records of a key, in order. -/
def samplesOf (k : Key) (rs : List Record) : List (Option Matrix) :=
  (rs.filter fun r => r.key = k).map samples

end Record

namespace Store
variable {s s' : Store} {policy : Policy} {r : Record} {rs : List Record} {outcomes : List Outcome} {k : Key}

/-- What comes of putting samples into a cell, as far as the store may be written. -/
def put (s : Store) (outcome : Outcome) (samples : Option Matrix) : Except Fault (Outcome × Cell) :=
  if s.isWritable then .ok (outcome, s.codec.cell samples) else .error (.database .readOnly)

/-- What comes of samples that are written to a trial whose cell is `old`, if it has one yet, and the cell
that it has then. -/
def verdict (s : Store) (policy : Policy) (old : Option Cell) (samples : Option Matrix) :
    Except Fault (Outcome × Cell) :=
  match old with
  | none => s.put .inserted samples
  | some cell =>
    match cell.stored 0 with
    | .error fault => .error (.database fault)
    | .ok bytes =>
      match policy with
      | .ignore => .ok (.ignored, cell)
      | .replace => s.put .replaced samples
      | .merge =>
        match s.codec.samples bytes with
        | .error fault => .error (.blob fault)
        | .ok old => s.put .merged (Matrix.merge old samples)

/-- What comes of samples that are written to a trial one after another. -/
def verdicts (s : Store) (policy : Policy) :
    (old : Option Cell) → List (Option Matrix) → Except Fault (List Outcome × Option Cell)
  | old, [] => .ok ([], old)
  | old, samples :: rest =>
    match s.verdict policy old samples with
    | .error fault => .error fault
    | .ok (outcome, cell) =>
      (s.verdicts policy (some cell) rest).map fun (outcomes, cell) => (outcome :: outcomes, cell)

theorem put_eq_ok {o outcome : Outcome} {cell : Cell} {samples : Option Matrix} :
    s.put o samples = .ok (outcome, cell) ↔
      s.isWritable = true ∧ outcome = o ∧ cell = s.codec.cell samples := by
  unfold put
  split_ifs with hw <;> simp [hw, eq_comm]

section
variable {cell cell' : Cell} {outcome : Outcome} {samples : Option Matrix}

theorem verdict_none_eq_ok : s.verdict policy none samples = .ok (outcome, cell) ↔
    s.isWritable = true ∧ outcome = .inserted ∧ cell = s.codec.cell samples := put_eq_ok

theorem verdict_ignore_eq_ok : s.verdict .ignore (some cell) samples = .ok (outcome, cell') ↔
    (∃ bytes, cell.stored 0 = .ok bytes) ∧ outcome = .ignored ∧ cell' = cell := by
  rw [verdict]
  cases cell.stored 0 <;> simp [eq_comm]

theorem verdict_replace_eq_ok : s.verdict .replace (some cell) samples = .ok (outcome, cell') ↔
    (∃ bytes, cell.stored 0 = .ok bytes) ∧
      s.isWritable = true ∧ outcome = .replaced ∧ cell' = s.codec.cell samples := by
  rw [verdict]
  cases cell.stored 0 <;> simp [put_eq_ok]

theorem verdict_merge_eq_ok : s.verdict .merge (some cell) samples = .ok (outcome, cell') ↔
    ∃ old, cell.Holds s.codec old ∧
      s.isWritable = true ∧ outcome = .merged ∧ cell' = s.codec.cell (Matrix.merge old samples) := by
  simp only [← Table.samples_eq_ok 0]
  rw [verdict]
  cases cell.stored 0 with
  | error fault => simp
  | ok bytes =>
    dsimp only
    cases hs : s.codec.samples bytes <;> simp [hs, put_eq_ok]

/-- A write leaves the cell of some samples, or a cell for samples that was there before. -/
theorem cell_of_verdict {old : Option Cell} (h : s.verdict policy old samples = .ok (outcome, cell)) :
    (∃ samples', cell = s.codec.cell samples') ∨ old = some cell ∧ ∃ bytes, cell.stored 0 = .ok bytes := by
  cases old with
  | none =>
    obtain ⟨-, -, rfl⟩ := verdict_none_eq_ok.1 h
    exact .inl ⟨_, rfl⟩
  | some old =>
    cases policy with
    | ignore =>
      obtain ⟨hs, -, rfl⟩ := verdict_ignore_eq_ok.1 h
      exact .inr ⟨rfl, hs⟩
    | replace =>
      obtain ⟨-, -, -, rfl⟩ := verdict_replace_eq_ok.1 h
      exact .inl ⟨_, rfl⟩
    | merge =>
      obtain ⟨_, -, -, -, rfl⟩ := verdict_merge_eq_ok.1 h
      exact .inl ⟨_, rfl⟩

end

/-- The store with a cell for a trial. -/
def set (s : Store) (k : Key) (cell : Cell) : Store :=
  { s with table := s.table.set k cell }

theorem change_eq {change : Change} {samples : Option Matrix} (outcome : Outcome)
    (hne : change ≠ .nothing) (hc : s.table.change change = .ok (s.table.set k (s.codec.cell samples))) :
    (s.change change).map (fun s' => (outcome, s')) =
      (s.put outcome samples).map fun (outcome, cell) => (outcome, s.set k cell) := by
  rw [Store.change, hc, put]
  cases hw : s.isWritable <;> simp [hne, hw, Except.map, set]

/-- A write concerns the cell of its trial and no other. -/
theorem write_eq (h : s.table.Keyed) (policy : Policy) (r : Record) : s.write policy r =
    (s.verdict policy (s.table.find? r.key.integers) r.samples).map fun (outcome, cell) =>
      (outcome, s.set r.key cell) := by
  unfold write plan verdict
  cases hf : s.table.find? r.key.integers with
  | none =>
    refine change_eq _ (by simp) ?_
    rw [Table.set, hf]
    exact h.add_eq hf
  | some cell =>
    have hupdate (samples : Cell) :
        s.table.change (.update r.key.integers samples) = .ok (s.table.set r.key samples) := by
      rw [Table.set, hf]
      exact h.update_eq
    dsimp only
    cases cell.stored 0 with
    | error fault => rfl
    | ok bytes =>
      cases policy with
      | ignore =>
        have hnothing : s.change .nothing = .ok s := by simp [Store.change, Table.change]
        simp only [resolve, Except.map, hnothing, set, h.set_self hf, Policy.outcome]
      | replace => exact change_eq _ (by simp) (hupdate _)
      | merge =>
        simp only [resolve]
        cases s.codec.samples bytes with
        | error fault => rfl
        | ok old => exact change_eq _ (by simp) (hupdate _)

theorem write_eq_ok (h : s.table.Keyed) {outcome : Outcome} : s.write policy r = .ok (outcome, s') ↔
    ∃ cell, s.verdict policy (s.table.find? r.key.integers) r.samples = .ok (outcome, cell) ∧
      s' = s.set r.key cell := by
  rw [write_eq h, map_eq_ok]
  constructor
  · rintro ⟨⟨o, cell⟩, hv, he⟩
    obtain ⟨rfl, rfl⟩ := Prod.mk.inj he
    exact ⟨cell, hv, rfl⟩
  · rintro ⟨cell, hv, rfl⟩
    exact ⟨_, hv, rfl⟩

/-- The store after a verdict on a trial. -/
def settle (s : Store) (k : Key) : Except Fault (Outcome × Cell) → Store
  | .ok (_, cell) => s.set k cell
  | .error _ => s

theorem insert_eq (h : s.table.Keyed) (policy : Policy) (r : Record) : s.insert policy r =
    ((s.verdict policy (s.table.find? r.key.integers) r.samples).map Prod.fst,
      s.settle r.key (s.verdict policy (s.table.find? r.key.integers) r.samples)) := by
  rw [insert, write_eq h]
  cases s.verdict policy (s.table.find? r.key.integers) r.samples <;> rfl

theorem verdicts_cons_eq_ok {old final : Option Cell} {samples : Option Matrix} {rest : List (Option Matrix)} :
    s.verdicts policy old (samples :: rest) = .ok (outcomes, final) ↔
      ∃ o cell os, s.verdict policy old samples = .ok (o, cell) ∧
        s.verdicts policy (some cell) rest = .ok (os, final) ∧ outcomes = o :: os := by
  rw [verdicts]
  cases s.verdict policy old samples with
  | error fault => simp
  | ok given =>
    obtain ⟨o, cell⟩ := given
    simp only [map_eq_ok, Prod.mk.injEq, Prod.exists, Except.ok.injEq]
    constructor
    · rintro ⟨os, final, hrest, rfl, rfl⟩
      exact ⟨o, cell, os, ⟨rfl, rfl⟩, hrest, rfl⟩
    · rintro ⟨_, _, os, ⟨rfl, rfl⟩, hrest, rfl⟩
      exact ⟨os, final, hrest, rfl, rfl⟩

theorem verdicts_withTable (t : Table) (old : Option Cell) (l : List (Option Matrix)) :
    Store.verdicts { s with table := t } policy old l = s.verdicts policy old l := by
  induction l generalizing old with
  | nil => rfl
  | cons samples l ih =>
    have hverdict : Store.verdict { s with table := t } policy old samples = s.verdict policy old samples := rfl
    simp only [verdicts, hverdict, ih]

/-- What came of the records of a key. -/
def outcomesOf (k : Key) (rs : List Record) (outcomes : List Outcome) : List Outcome :=
  (((rs.map Record.key).zip outcomes).filter fun entry => entry.1 = k).map Prod.snd

/-- What writes leave, trial by trial. -/
structure Leaves (s : Store) (policy : Policy) (rs : List Record) (outcomes : List Outcome) (s' : Store) :
    Prop where
  eq : s' = { s with table := s'.table }
  keyed : s'.table.Keyed
  /-- Each trial is left as the writes to it leave it. -/
  trials : ∀ k, s.verdicts policy (s.table.find? k.integers) (Record.samplesOf k rs)
    = .ok (outcomesOf k rs outcomes, s'.table.find? k.integers)
  /-- What is not written is left alone. -/
  strays : ∀ row : Row, row.IsStray → s'.table.rows.count row = s.table.rows.count row

/-- What records come to that are written one after another can be told for each trial from its own. -/
theorem writeAll_spec (h : s.table.Keyed) (hw : s.writeAll policy rs = .ok (outcomes, s')) :
    s.Leaves policy rs outcomes s' := by
  induction rs generalizing s outcomes with
  | nil =>
    obtain ⟨rfl, rfl⟩ := writeAll_nil_eq_ok.1 hw
    exact ⟨rfl, h, fun k => rfl, fun row _ => rfl⟩
  | cons r rs ih =>
    obtain ⟨o, s₁, os, hr, hrest, rfl⟩ := writeAll_cons_eq_ok.1 hw
    obtain ⟨cell, hv, rfl⟩ := (write_eq_ok h).1 hr
    have hs := ih h.set hrest
    refine ⟨hs.eq, hs.keyed, fun k => ?_, fun row hr => ?_⟩
    · -- the trial of `r` goes on from the cell that `r` left, every other one from the cell it had
      have htrial := hs.trials k
      rw [set, verdicts_withTable, h.find?_set] at htrial
      by_cases hk : r.key = k
      · subst hk
        rw [if_pos rfl] at htrial
        simp only [Record.samplesOf, outcomesOf, List.map_cons, List.zip_cons_cons, List.filter_cons,
          decide_true, if_true] at htrial ⊢
        exact verdicts_cons_eq_ok.2 ⟨o, cell, _, hv, htrial, rfl⟩
      · rw [if_neg (Ne.symm hk)] at htrial
        simpa [Record.samplesOf, outcomesOf, hk] using htrial
    · rw [hs.strays row hr, set, Table.count_set_of_isStray hr]

/-- Records can be written one after another if those of each trial can. -/
theorem exists_writeAll (h : s.table.Keyed)
    (hv : ∀ k, ∃ given, s.verdicts policy (s.table.find? k.integers) (Record.samplesOf k rs) = .ok given) :
    ∃ outcomes s', s.writeAll policy rs = .ok (outcomes, s') := by
  induction rs generalizing s with
  | nil => exact ⟨[], s, rfl⟩
  | cons r rs ih =>
    obtain ⟨⟨outcomes, final⟩, hr⟩ := hv r.key
    rw [Record.samplesOf, List.filter_cons_of_pos (by simp), List.map_cons] at hr
    obtain ⟨o, cell, os, hverdict, hown, -⟩ := verdicts_cons_eq_ok.1 hr
    have hw := (write_eq_ok h).2 ⟨cell, hverdict, rfl⟩
    obtain ⟨os', s', hrest⟩ := ih (s := s.set r.key cell) h.set fun k => by
      simp only [set, verdicts_withTable]
      rw [h.find?_set]
      by_cases hk : r.key = k
      · subst hk
        rw [if_pos rfl]
        exact ⟨_, hown⟩
      · rw [if_neg (Ne.symm hk)]
        simpa [Record.samplesOf, hk] using hv k
    exact ⟨_, s', writeAll_cons_eq_ok.2 ⟨o, _, os', hw, hrest, rfl⟩⟩

end Store
end Campaign
