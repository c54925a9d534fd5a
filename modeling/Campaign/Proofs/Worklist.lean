import Mathlib
import Campaign.Proofs.Catalogue
import Campaign.Proofs.Reorder

/-!
# The trials to run again

The trials without samples are found whatever the other rows hold, each of them once. A batch comes to the
steps of its records, each written on its own (`leads_after`), and a step `Completes` a trial, or it `Fails`
one, or leaves it as it was (`awaits_insert`). So what a run leaves to be run again can be told from its
steps (`awaits_leads`).
-/

namespace Campaign

/-- A record that is written, and what came of it. -/
structure Step where
  write : Write
  outcome : Outcome

namespace Step

/-- The step brings samples to a trial that was there. -/
structure Completes (step : Step) (k : Key) : Prop where
  key : step.write.record.key = k
  outcome : step.outcome = .replaced ∨ step.outcome = .merged
  samples : step.write.record.samples ≠ none

/-- The step leaves a trial without samples that was not there, or whose samples it replaces. -/
structure Fails (step : Step) (k : Key) : Prop where
  key : step.write.record.key = k
  outcome : step.outcome = .inserted ∨ step.outcome = .replaced
  samples : step.write.record.samples = none

end Step

/-- The request is to insert records. -/
def Request.IsInsert : Request → Prop
  | .insert .. | .insertMany .. => True
  | .get _ | .query _ | .catalogue | .failedRecords | .count | .reopen => False

theorem Matrix.merge_eq_none {old new : Option Matrix} : merge old new = none ↔ old = none ∧ new = none := by
  cases old <;> cases new <;> simp [merge]

theorem Cell.Holds.eq_absent_iff {c : Codec} {cell : Cell} {samples : Option Matrix}
    (h : cell.Holds c samples) : cell = .absent ↔ samples = none := by
  cases h <;> simp

namespace Store
variable {s s' s₁ s₂ : Store} {step : Step} {steps steps' : List Step} {k : Key} {policy : Policy}
  {rs : List Record}

/-! ### The list -/

theorem exists_failedRecords (hk : ∀ row ∈ s.table.rows, ∃ k : Key, row.key = k.integers.map .integer)
    (hd : (s.table.rows.map Row.key).Nodup) :
    ∃ rs, s.failedRecords = .ok rs ∧ (rs.map Record.key).Nodup ∧
      ∀ r : Record, r ∈ rs ↔ r.samples = none ∧ .ofIntegers r.key.integers .absent ∈ s.table.rows := by
  have hrow : ∀ row ∈ s.table.rows.filter (fun row => row.samples == .absent),
      ∃ k : Key, row = .ofIntegers k.integers .absent := by
    intro row hm
    obtain ⟨hm, ha⟩ := List.mem_filter.1 hm
    obtain ⟨k, hk⟩ := hk row hm
    exact ⟨k, by rw [Row.eq_ofIntegers hk, beq_iff_eq.1 ha]⟩
  obtain ⟨rs, hrs⟩ := exists_mapM_eq_ok (f := Table.readRow s.codec).2 fun row hm => by
    obtain ⟨k, rfl⟩ := hrow row hm
    exact ⟨⟨k, none⟩, Table.readRow_eq_ok.2 ⟨rfl, .absent⟩⟩
  refine ⟨rs, Table.failedRecords_eq.trans hrs, ?_, fun r => ?_⟩
  · refine Table.nodup_of_readRows hrs (fun row hm => ?_) (hd.sublist (List.filter_sublist.map _))
    obtain ⟨k, rfl⟩ := hrow row hm
    exact ⟨_, _, rfl⟩
  · rw [Table.mem_of_readRows hrs]
    constructor
    · rintro ⟨row, hm, hr⟩
      obtain ⟨k, rfl⟩ := hrow row hm
      obtain ⟨hkey, hs⟩ := Table.readRow_eq_ok.1 hr
      rw [hkey]
      exact ⟨hs.eq_absent_iff.1 rfl, (List.mem_filter.1 hm).1⟩
    · rintro ⟨hs, hm⟩
      exact ⟨_, List.mem_filter.2 ⟨hm, by simp⟩, Table.readRow_eq_ok.2 ⟨rfl, hs ▸ .absent⟩⟩

/-- Where all records can be read, the list is made of those that failed. -/
theorem failedRecords_of_query_any (hk : ∀ row ∈ s.table.rows, ∃ k : Key, row.key = k.integers.map .integer)
    (hq : s.query .any = .ok rs) : s.failedRecords = .ok (rs.filter Record.isFailed) := by
  rw [query_any] at hq
  refine Table.failedRecords_eq.trans (mapM_filter hq fun row hm r hr => ?_)
  obtain ⟨k, hkey⟩ := hk row hm
  rw [Row.eq_ofIntegers hkey, Table.readRow_eq_ok] at hr
  rw [Bool.eq_iff_iff, beq_iff_eq, Record.isFailed, Option.isNone_iff_eq_none]
  exact hr.2.eq_absent_iff

/-- The trial is on the list of those to run again. -/
def Awaits (s : Store) (k : Key) : Prop :=
  ∃ rs, s.failedRecords = .ok rs ∧ k ∈ rs.map Record.key

theorem awaits_iff (h : s.table.OfTrials) : s.Awaits k ↔ s.table.find? k.integers = some .absent := by
  obtain ⟨rs, hrs, -, hmem⟩ := exists_failedRecords h.keys h.nodup
  have hlist : s.Awaits k ↔ k ∈ rs.map Record.key := by
    simp only [Awaits, hrs, Except.ok.injEq, exists_eq_left']
  rw [hlist, h.keyed.find?_eq_some, List.mem_map]
  constructor
  · rintro ⟨r, hr, rfl⟩
    exact ((hmem r).1 hr).2
  · intro hm
    exact ⟨⟨k, none⟩, (hmem _).2 ⟨rfl, hm⟩, rfl⟩

/-! ### Steps -/

/-- Steps lead from one store to another, each by an insert that succeeds. -/
inductive Leads : Store → List Step → Store → Prop
  | nil {s : Store} : Leads s [] s
  | cons {s s₁ s' : Store} {step : Step} {steps : List Step}
    (hstep : s.insert step.write.policy step.write.record = (.ok step.outcome, s₁))
    (hsteps : Leads s₁ steps s') : Leads s (step :: steps) s'

theorem Leads.append (h : s.Leads steps s₁) (h' : s₁.Leads steps' s') : s.Leads (steps ++ steps') s' := by
  induction h with
  | nil => exact h'
  | cons hstep _ ih => exact .cons hstep (ih h')

theorem leads_writeAll {outcomes : List Outcome} (hw : s.writeAll policy rs = .ok (outcomes, s')) :
    ∃ steps, steps.map Step.write = rs.map (Write.mk policy) ∧ s.Leads steps s' := by
  induction rs generalizing s outcomes with
  | nil =>
    obtain ⟨-, rfl⟩ := writeAll_nil_eq_ok.1 hw
    exact ⟨[], rfl, .nil⟩
  | cons r rs ih =>
    obtain ⟨o, s₁, os, hr, hrest, -⟩ := writeAll_cons_eq_ok.1 hw
    obtain ⟨steps, hsteps, hl⟩ := ih hrest
    exact ⟨⟨⟨policy, r⟩, o⟩ :: steps, congrArg _ hsteps, .cons (insert_eq_ok.2 hr) hl⟩

theorem leads_answer {q : Request} (hq : q.IsInsert) (hok : ∃ a, (s.answer q).1 = .ok a) :
    ∃ steps, steps.map Step.write = q.writes ∧ s.Leads steps (s.answer q).2 := by
  obtain ⟨a, hok⟩ := hok
  cases q with
  | insert policy r =>
    obtain ⟨o, ho, -⟩ := map_eq_ok.1 hok
    exact ⟨[⟨⟨policy, r⟩, o⟩], rfl, .cons (Prod.ext ho rfl) .nil⟩
  | insertMany policy rs =>
    obtain ⟨tally, ht, -⟩ := map_eq_ok.1 hok
    obtain ⟨outcomes, hw, -⟩ := insertMany_eq_ok.1 (Prod.ext ht rfl)
    exact leads_writeAll hw
  | get | query | catalogue | failedRecords | count | reopen => exact hq.elim

/-- Requests that succeed come to the steps of the records that they write. -/
theorem leads_after {qs : List Request} (hi : ∀ q ∈ qs, q.IsInsert)
    (hok : ∀ given ∈ s.answers qs, ∃ a, given = .ok a) :
    ∃ steps, steps.map Step.write = qs.flatMap Request.writes ∧ s.Leads steps (s.after qs) := by
  induction qs generalizing s with
  | nil => exact ⟨[], rfl, .nil⟩
  | cons q qs ih =>
    obtain ⟨hq, hqs⟩ := List.forall_mem_cons.1 hi
    obtain ⟨hfirst, hrest⟩ := List.forall_mem_cons.1 hok
    obtain ⟨steps, hsteps, hl⟩ := leads_answer hq hfirst
    obtain ⟨steps', hsteps', hl'⟩ := ih hqs hrest
    exact ⟨steps ++ steps', by rw [List.map_append, hsteps, hsteps', List.flatMap_cons], hl.append hl'⟩

/-! ### What a step changes -/

/-- The cell that a verdict leaves is empty if the samples fail the trial, or if it was empty before and they
do not complete it. -/
theorem verdict_absent_iff {r : Record} {old : Option Cell} {outcome : Outcome} {cell : Cell}
    (hv : s.verdict policy old r.samples = .ok (outcome, cell)) : cell = .absent ↔
      old = some .absent ∧ ¬Step.Completes ⟨⟨policy, r⟩, outcome⟩ r.key ∨
        Step.Fails ⟨⟨policy, r⟩, outcome⟩ r.key := by
  have hcompletes : Step.Completes ⟨⟨policy, r⟩, outcome⟩ r.key ↔
      (outcome = .replaced ∨ outcome = .merged) ∧ r.samples ≠ none :=
    ⟨fun h => ⟨h.outcome, h.samples⟩, fun h => ⟨rfl, h.1, h.2⟩⟩
  have hfails : Step.Fails ⟨⟨policy, r⟩, outcome⟩ r.key ↔
      (outcome = .inserted ∨ outcome = .replaced) ∧ r.samples = none :=
    ⟨fun h => ⟨h.outcome, h.samples⟩, fun h => ⟨rfl, h.1, h.2⟩⟩
  rw [hcompletes, hfails]
  cases old with
  | none =>
    obtain ⟨-, rfl, rfl⟩ := verdict_none_eq_ok.1 hv
    simp [Codec.cell_eq_absent]
  | some old =>
    cases policy with
    | ignore =>
      obtain ⟨-, rfl, rfl⟩ := verdict_ignore_eq_ok.1 hv
      simp
    | replace =>
      obtain ⟨-, -, rfl, rfl⟩ := verdict_replace_eq_ok.1 hv
      simp [Codec.cell_eq_absent]
    | merge =>
      obtain ⟨samples, hold, -, rfl, rfl⟩ := verdict_merge_eq_ok.1 hv
      simp [Codec.cell_eq_absent, Matrix.merge_eq_none, hold.eq_absent_iff]

theorem ofTrials_insert (h : s.table.OfTrials) {r : Record} {outcome : Outcome}
    (hi : s.insert policy r = (.ok outcome, s₁)) : s₁.table.OfTrials :=
  ofTrials_write h (insert_eq_ok.1 hi)

/-- A trial leaves the list by a step that completes it, and gets on it by one that fails it. -/
theorem awaits_insert (h : s.table.OfTrials)
    (hi : s.insert step.write.policy step.write.record = (.ok step.outcome, s₁)) :
    s₁.Awaits k ↔ s.Awaits k ∧ ¬step.Completes k ∨ step.Fails k := by
  rw [awaits_iff h, awaits_iff (ofTrials_insert h hi)]
  obtain ⟨cell, hv, rfl⟩ := (write_eq_ok h.keyed).1 (insert_eq_ok.1 hi)
  rw [set, h.keyed.find?_set]
  by_cases hk : k = step.write.record.key
  · subst hk
    rw [if_pos rfl, Option.some_inj]
    exact verdict_absent_iff hv
  · have hcompletes : ¬step.Completes k := fun hc => hk hc.key.symm
    have hfails : ¬step.Fails k := fun hf => hk hf.key.symm
    simp [hk, hcompletes, hfails]

/-- What a run leaves on the list: a trial that was on it and that no step completed, or one that a step
failed and no later one completed. -/
theorem awaits_leads (h : s.table.OfTrials) (hl : s.Leads steps s') :
    s'.Awaits k ↔ (s.Awaits k ∧ ∀ step ∈ steps, ¬step.Completes k) ∨
      ∃ step behind, (step :: behind) <:+ steps ∧ step.Fails k ∧ ∀ later ∈ behind, ¬later.Completes k := by
  induction hl with
  | nil => simp
  | @cons s s₁ s' step steps hstep _ ih =>
    have hsuffix : (∃ first behind, (first :: behind) <:+ step :: steps ∧ first.Fails k ∧
        ∀ later ∈ behind, ¬later.Completes k) ↔
        (step.Fails k ∧ ∀ later ∈ steps, ¬later.Completes k) ∨
          ∃ first behind, (first :: behind) <:+ steps ∧ first.Fails k ∧
            ∀ later ∈ behind, ¬later.Completes k := by
      simp only [List.suffix_cons_iff, List.cons.injEq, or_and_right, exists_or, and_assoc,
        exists_eq_left, exists_and_left]
    rw [ih (ofTrials_insert h hstep), awaits_insert h hstep, hsuffix, List.forall_mem_cons, or_and_right,
      and_assoc, or_assoc]

/-- Where every row has the key of a trial, its own, the trials to run again are those with an empty cell,
each once, whatever stands in the other cells; where all records can be read they are those without samples.
Inserts and batches that succeed come to steps, one for each record. A trial is on the list after them if it
was before and no step completed it, or if a step failed it and no later one completed it: it leaves the list
by a step that completes it only, and gets on it by one that fails it only. -/
theorem failedRecords_spec (s : Store)
    (hk : ∀ row ∈ s.table.rows, ∃ k : Key, row.key = k.integers.map .integer)
    (hd : (s.table.rows.map Row.key).Nodup) :
    (∃ rs, s.failedRecords = .ok rs ∧ (rs.map Record.key).Nodup ∧
      ∀ r : Record, r ∈ rs ↔ r.samples = none ∧ .ofIntegers r.key.integers .absent ∈ s.table.rows) ∧
    (∀ rs, s.query .any = .ok rs → s.failedRecords = .ok (rs.filter Record.isFailed)) ∧
    (s.table.schema = .standard → ∀ qs : List Request, (∀ q ∈ qs, q.IsInsert) →
      (∀ given ∈ s.answers qs, ∃ a, given = .ok a) →
      ∃ steps, steps.map Step.write = qs.flatMap Request.writes ∧ s.Leads steps (s.after qs) ∧
        ∀ k, (s.after qs).Awaits k ↔ (s.Awaits k ∧ ∀ step ∈ steps, ¬step.Completes k) ∨
          ∃ step behind, (step :: behind) <:+ steps ∧ step.Fails k ∧
            ∀ later ∈ behind, ¬later.Completes k) := by
  refine ⟨exists_failedRecords hk hd, fun rs => failedRecords_of_query_any hk, fun hs qs hi hok => ?_⟩
  obtain ⟨steps, hsteps, hl⟩ := leads_after hi hok
  exact ⟨steps, hsteps, hl, fun k => awaits_leads ⟨hs, hk, hd⟩ hl⟩

/-- A merge completes a trial that failed, beside bytes that no codec has written, and a batch puts a trial
without samples in their place. -/
theorem failedRecords_planted :
    let one : Matrix := ⟨[.failed], by simp⟩
    let k : Key := ⟨1, 50, 64, 1024⟩
    let l : Key := ⟨2, 50, 64, 1024⟩
    let s : Store := { codec := .blob, table := ⟨.standard,
      [.ofIntegers k.integers .absent, .ofIntegers l.integers (.blob [0])]⟩ }
    let qs : List Request := [.insert .merge ⟨k, some one⟩, .insertMany .replace [⟨l, some one⟩, ⟨l, none⟩]]
    (∃ rs, s.failedRecords = .ok rs ∧ ⟨k, none⟩ ∈ rs) ∧
    (s.after qs).failedRecords
      = .ok ([⟨k, some one⟩, ⟨l, none⟩].filter Record.isFailed) ∧
    ∃ steps, s.Leads steps (s.after qs) ∧ (∃ step ∈ steps, step.Completes k) ∧ ∃ step ∈ steps, step.Fails l := by
  intro one k l s qs
  obtain ⟨hbefore, hafter, hread, hmerge, hbatch⟩ : s.failedRecords = .ok [⟨k, none⟩] ∧
      (s.after qs).failedRecords = .ok [⟨l, none⟩] ∧
      (s.after qs).query .any = .ok [⟨k, some one⟩, ⟨l, none⟩] ∧
      (s.insert .merge ⟨k, some one⟩).1 = .ok .merged ∧
      ((s.insert .merge ⟨k, some one⟩).2.insertMany .replace [⟨l, some one⟩, ⟨l, none⟩]).1
        = .ok ⟨0, 0, 2, 0⟩ := by decide +kernel +revert
  have hs : s.table.OfTrials := by
    refine ⟨rfl, fun row hm => ?_, by decide⟩
    simp only [s, List.mem_cons, List.not_mem_nil, or_false] at hm
    rcases hm with rfl | rfl
    · exact ⟨k, rfl⟩
    · exact ⟨l, rfl⟩
  obtain ⟨⟨rs, hrs, -, hmem⟩, -, hrun⟩ := failedRecords_spec s hs.keys hs.nodup
  have hs' : (s.after qs).table.OfTrials := ofTrials_after hs qs
  obtain ⟨-, hquery, -⟩ := failedRecords_spec (s.after qs) hs'.keys hs'.nodup
  refine ⟨⟨rs, hrs, (hmem _).2 ⟨rfl, .head _⟩⟩, hquery _ hread, ?_⟩
  obtain ⟨steps, -, hl, hawaits⟩ := hrun rfl qs (by simp [qs, Request.IsInsert])
    (by simp [qs, answers, answer, hmerge, hbatch, Except.map])
  refine ⟨steps, hl, ?_, ?_⟩
  · -- `k` was on the list and is not any more
    by_contra hnone
    have hk := (hawaits k).2 (.inl ⟨⟨_, hbefore, by simp⟩, fun step hm hc => hnone ⟨step, hm, hc⟩⟩)
    simp [Awaits, hafter, k, l] at hk
  · have hl : (s.after qs).Awaits l := ⟨_, hafter, by simp⟩
    rcases (hawaits l).1 hl with ⟨hl, -⟩ | ⟨step, behind, hm, hf, -⟩
    · simp [Awaits, hbefore, k, l] at hl
    · exact ⟨step, hm.subset List.mem_cons_self, hf⟩

end Store
end Campaign
