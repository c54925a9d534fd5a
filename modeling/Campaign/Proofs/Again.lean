import Mathlib
import Campaign.Proofs.Ingest
import Campaign.Proofs.Matrix
import Campaign.Proofs.Query
import Campaign.Proofs.Trials

/-!
# Ingesting a directory again

A run leaves a cell for each trial with a log, and the cell tells what a second run over the same logs comes
to. Nothing is inserted then, so the keys stay where they are; the first policies find what they have left
(`verdicts_ignore`, `replace_eq_ok`), and merging puts the rows of the logs behind those that are stored
(`verdicts_merge`). So a directory may be ingested any number of times (`directory_again`).
-/

namespace Campaign

/-- What samples a cell holds, if there is a cell: a trial that is not stored has none. -/
inductive Codec.Finds (c : Codec) : Option Cell → Option Matrix → Prop
  | absent : Finds c none none
  | stored {cell : Cell} {samples : Option Matrix} (h : cell.Holds c samples) : Finds c (some cell) samples

namespace Store
variable {s s' : Store} {policy : Policy} {cell : Cell} {samples : Option Matrix} {old final : Option Cell}
  {l : List (Option Matrix)} {outcomes : List Outcome} {o : Outcome}

/-! ### What is written to a trial again -/

theorem stored_of_verdict (h : s.verdict policy old samples = .ok (o, cell)) :
    ∃ bytes, cell.stored 0 = .ok bytes := by
  rcases cell_of_verdict h with ⟨samples', rfl⟩ | ⟨-, hs⟩
  · exact ⟨_, Codec.stored_cell 0⟩
  · exact hs

theorem stored_of_verdicts (hl : l ≠ []) (h : s.verdicts policy old l = .ok (outcomes, final)) :
    ∃ cell bytes, final = some cell ∧ cell.stored 0 = .ok bytes := by
  induction l generalizing old outcomes with
  | nil => exact absurd rfl hl
  | cons samples l ih =>
    obtain ⟨o, cell, os, hv, hrest, -⟩ := verdicts_cons_eq_ok.1 h
    cases l with
    | nil =>
      obtain ⟨bytes, hb⟩ := stored_of_verdict hv
      exact ⟨cell, bytes, (Prod.mk.inj (Except.ok.inj hrest)).2.symm, hb⟩
    | cons samples' l => exact ih (List.cons_ne_nil _ _) hrest

theorem verdicts_ignore (hc : ∃ bytes, cell.stored 0 = .ok bytes) (l : List (Option Matrix)) :
    s.verdicts .ignore (some cell) l = .ok (.replicate l.length .ignored, some cell) := by
  induction l with
  | nil => rfl
  | cons samples l ih =>
    exact verdicts_cons_eq_ok.2 ⟨_, cell, _, verdict_ignore_eq_ok.2 ⟨hc, rfl, rfl⟩, ih, rfl⟩

/-- Under `replace` a trial is left with the last samples. -/
theorem replace_eq_ok (hl : l ≠ []) (h : s.verdicts .replace old l = .ok (outcomes, final)) :
    s.isWritable = true ∧ final = some (s.codec.cell (l.getLast hl)) := by
  induction l generalizing old outcomes with
  | nil => exact absurd rfl hl
  | cons samples l ih =>
    obtain ⟨o, cell, os, hv, hrest, -⟩ := verdicts_cons_eq_ok.1 h
    cases l with
    | nil =>
      obtain rfl := (Prod.mk.inj (Except.ok.inj hrest)).2
      cases old with
      | none =>
        obtain ⟨hw, -, rfl⟩ := verdict_none_eq_ok.1 hv
        exact ⟨hw, rfl⟩
      | some old =>
        obtain ⟨-, hw, -, rfl⟩ := verdict_replace_eq_ok.1 hv
        exact ⟨hw, rfl⟩
    | cons samples' l =>
      rw [List.getLast_cons (List.cons_ne_nil _ _)]
      exact ih (List.cons_ne_nil _ _) hrest

theorem verdicts_replace (hw : s.isWritable = true) (hc : ∃ bytes, cell.stored 0 = .ok bytes)
    (l : List (Option Matrix)) :
    ∃ final, s.verdicts .replace (some cell) l = .ok (.replicate l.length .replaced, final) := by
  induction l generalizing cell with
  | nil => exact ⟨_, rfl⟩
  | cons samples l ih =>
    obtain ⟨final, hrest⟩ := ih ⟨_, @Codec.stored_cell s.codec samples 0⟩
    exact ⟨final, verdicts_cons_eq_ok.2 ⟨_, _, _, verdict_replace_eq_ok.2 ⟨hc, hw, rfl, rfl⟩, hrest, rfl⟩⟩

theorem exists_finds_of_merge (hl : l ≠ []) (h : s.verdicts .merge old l = .ok (outcomes, final)) :
    s.isWritable = true ∧ ∃ samples, s.codec.Finds old samples := by
  obtain ⟨samples, l, rfl⟩ := List.exists_cons_of_ne_nil hl
  obtain ⟨o, cell, os, hv, -, -⟩ := verdicts_cons_eq_ok.1 h
  cases old with
  | none =>
    obtain ⟨hw, -⟩ := verdict_none_eq_ok.1 hv
    exact ⟨hw, none, .absent⟩
  | some old =>
    obtain ⟨samples, hs, hw, -⟩ := verdict_merge_eq_ok.1 hv
    exact ⟨hw, samples, .stored hs⟩

/-- Under `merge` the rows are put one behind the other, as long as the codec reads them back. -/
theorem verdicts_merge (hc : s.codec.Faithful) (hw : s.isWritable = true) (hl : l ≠ [])
    (hf : s.codec.Finds old samples) (hsmall : ((samples :: l).flatMap Matrix.rowsOf).length < 2 ^ 32) :
    ∃ os, s.verdicts .merge old l = .ok (os, some (s.codec.cell (Matrix.joined (samples :: l)))) ∧
      (old ≠ none → os = .replicate l.length .merged) := by
  induction l generalizing old samples with
  | nil => exact absurd rfl hl
  | cons new l ih =>
    have hjoined : Matrix.joined (samples :: new :: l) = Matrix.joined (Matrix.merge samples new :: l) :=
      (Matrix.joined_merge_cons samples new l).symm
    -- a trial that is not stored yet takes the samples for its own, which is a merge into no rows
    obtain ⟨o, hv, ho⟩ : ∃ o, s.verdict .merge old new
        = .ok (o, s.codec.cell (Matrix.merge samples new)) ∧ (old ≠ none → o = .merged) := by
      cases hf with
      | absent =>
        refine ⟨.inserted, verdict_none_eq_ok.2 ⟨hw, rfl, ?_⟩, fun h => absurd rfl h⟩
        cases new <;> rfl
      | stored hs => exact ⟨.merged, verdict_merge_eq_ok.2 ⟨_, hs, hw, rfl, rfl⟩, fun _ => rfl⟩
    rw [hjoined]
    cases l with
    | nil =>
      refine ⟨[o], verdicts_cons_eq_ok.2 ⟨o, _, [], hv, ?_, rfl⟩, fun h => by rw [ho h]; rfl⟩
      rw [Matrix.joined_singleton]; rfl
    | cons new' l =>
      have hrows : ((Matrix.merge samples new :: new' :: l).flatMap Matrix.rowsOf).length < 2 ^ 32 := by
        simpa [Matrix.merge_eq_ofRows?, Nat.add_assoc] using hsmall
      have hheld : (s.codec.cell (Matrix.merge samples new)).Holds s.codec (Matrix.merge samples new) := by
        refine hc.holds_cell fun matrix hm => ?_
        rw [List.flatMap_cons, hm] at hrows
        exact lt_of_le_of_lt (by simp [Matrix.rowsOf, Matrix.rowCount]) hrows
      obtain ⟨os, hrest, hos⟩ := ih (List.cons_ne_nil _ _) (.stored hheld) hrows
      exact ⟨o :: os, verdicts_cons_eq_ok.2 ⟨o, _, os, hv, hrest, rfl⟩,
        fun h => by rw [ho h, hos (by simp)]; rfl⟩

/-- What the samples of a trial come to when they are written once more. -/
theorem verdicts_again (hl : l ≠ []) (h : s.verdicts policy old l = .ok (outcomes, final))
    (hm : policy = .merge → s.codec.Faithful ∧ ∀ samples, s.codec.Finds old samples →
      (Matrix.rowsOf samples).length + 2 * (l.flatMap Matrix.rowsOf).length < 2 ^ 32) :
    ∃ final', s.verdicts policy final l = .ok (.replicate l.length policy.outcome, final') ∧
      (policy ≠ .merge → final' = final) ∧
      (policy = .merge → ∃ cell cell' samples, final = some cell ∧ cell.Holds s.codec samples ∧
        final' = some cell' ∧ cell'.Holds s.codec (Matrix.merge samples (Matrix.joined l))) := by
  obtain ⟨cell, bytes, rfl, hb⟩ := stored_of_verdicts hl h
  cases policy with
  | ignore => exact ⟨_, verdicts_ignore ⟨bytes, hb⟩ l, fun _ => rfl, nofun⟩
  | replace =>
    obtain ⟨hw, hcell⟩ := replace_eq_ok hl h
    obtain ⟨final', hagain⟩ := verdicts_replace hw ⟨bytes, hb⟩ l
    exact ⟨final', hagain, fun _ => (replace_eq_ok hl hagain).2.trans hcell.symm, nofun⟩
  | merge =>
    obtain ⟨hc, hsmall⟩ := hm rfl
    obtain ⟨hw, samples, hf⟩ := exists_finds_of_merge hl h
    -- the cell holds the rows of `samples :: l` after the first time, and those of `l` once more after the
    -- second, so both have to be few enough to be read back
    have hrows := hsmall samples hf
    have hheld (all : List (Option Matrix)) (hall : (all.flatMap Matrix.rowsOf).length < 2 ^ 32) :
        (s.codec.cell (Matrix.joined all)).Holds s.codec (Matrix.joined all) := by
      refine hc.holds_cell fun matrix hm => ?_
      rw [← Matrix.rowsOf_ofRows? (all.flatMap Matrix.rowsOf), ← Matrix.joined, hm] at hall
      exact hall
    obtain ⟨os, honce, -⟩ := verdicts_merge hc hw hl hf
      (by simp only [List.flatMap_cons, List.length_append]; omega)
    obtain ⟨-, hcell⟩ := Prod.mk.inj (Except.ok.inj (h.symm.trans honce))
    obtain rfl := Option.some_inj.1 hcell
    have hfirst := hheld (samples :: l) (by simp only [List.flatMap_cons, List.length_append]; omega)
    have hlong : ((Matrix.joined (samples :: l) :: l).flatMap Matrix.rowsOf).length < 2 ^ 32 := by
      rw [List.flatMap_cons, Matrix.joined, Matrix.rowsOf_ofRows?, List.flatMap_cons]
      simp only [List.length_append]; omega
    obtain ⟨os', htwice, hos⟩ := verdicts_merge hc hw hl (.stored hfirst) hlong
    rw [hos (by simp)] at htwice
    refine ⟨_, htwice, fun h => absurd rfl h, fun _ => ⟨_, _, _, rfl, hfirst, rfl, ?_⟩⟩
    rw [← Matrix.joined_cons]
    exact hheld _ hlong

/-! ### Where nothing is inserted -/

/-- Records that are all in conflict change samples where they stand. -/
theorem exists_map_of_writeAll {rs : List Record} (h : s.table.Keyed)
    (hw : s.writeAll policy rs = .ok (outcomes, s')) (ho : ∀ o ∈ outcomes, o ≠ .inserted) :
    ∃ f : Row → Row, s'.table.rows = s.table.rows.map f ∧
      ∀ row, (f row).key = row.key ∧ ((∀ r ∈ rs, row.hasKey r.key.integers ≠ true) → f row = row) := by
  induction rs generalizing s outcomes with
  | nil =>
    obtain ⟨rfl, rfl⟩ := writeAll_nil_eq_ok.1 hw
    exact ⟨id, by simp, fun row => ⟨rfl, fun _ => rfl⟩⟩
  | cons r rs ih =>
    obtain ⟨o, s₁, os, hr, hrest, rfl⟩ := writeAll_cons_eq_ok.1 hw
    obtain ⟨cell, hv, rfl⟩ := (write_eq_ok h).1 hr
    obtain ⟨ho, hos⟩ := List.forall_mem_cons.1 ho
    -- in conflict means that the trial is stored, so that its row changes and none is added
    obtain ⟨f, hf, hrow⟩ := ih h.set hrest hos
    have hfound : (s.table.find? r.key.integers).isSome := by
      cases hfind : s.table.find? r.key.integers with
      | none =>
        rw [hfind] at hv
        exact absurd (verdict_none_eq_ok.1 hv).2.1 ho
      | some cell => rfl
    refine ⟨f ∘ Row.overwrite r.key.integers cell, ?_, fun row => ⟨?_, fun hk => ?_⟩⟩
    · rw [hf, set, Table.set, if_pos hfound, Table.overwrite, List.map_map]
    · rw [Function.comp_apply, (hrow _).1, Row.key_overwrite]
    · obtain ⟨hkr, hk⟩ := List.forall_mem_cons.1 hk
      rw [Function.comp_apply, Row.overwrite, if_neg hkr]
      exact (hrow row).2 hk

end Store

/-- Tables whose rows stand in the same order and have the same samples for each trial are the same. -/
theorem Table.Keyed.eq_of_map {t t' : Table} (h : t.Keyed) (h' : t'.Keyed) {f : Row → Row}
    (hrows : t'.rows = t.rows.map f) (hf : ∀ row, (f row).key = row.key ∧ (row.IsStray → f row = row))
    (hfind : ∀ k : Key, t'.find? k.integers = t.find? k.integers) : t' = t := by
  have hrow : ∀ row ∈ t.rows, f row = row := by
    intro row hm
    by_cases hs : row.IsStray
    · exact (hf row).2 hs
    · obtain ⟨k, hk⟩ := not_forall.1 hs
      rw [not_not] at hk
      have hrow := Row.eq_ofIntegers (h.integers row hm k hk)
      have hrow' : f row = .ofIntegers k.integers (f row).samples :=
        Row.eq_ofIntegers (by rw [(hf row).1, h.integers row hm k hk])
      have hm' : f row ∈ t'.rows := hrows ▸ List.mem_map_of_mem hm
      rw [hrow] at hm
      rw [hrow', ← h'.find?_eq_some, hfind, h.find?_eq_some.2 hm, Option.some_inj] at hm'
      rw [hrow', ← hm', ← hrow]
  rw [List.map_congr_left hrow, List.map_id'] at hrows
  obtain ⟨schema, rows⟩ := t
  obtain ⟨schema', rows'⟩ := t'
  obtain rfl : schema = .standard := h.schema
  obtain rfl : schema' = .standard := h'.schema
  obtain rfl : rows' = rows := hrows
  rfl

namespace Store
variable {s s' : Store} {policy : Policy} {rs : List Record} {outcomes : List Outcome} {o : Outcome} {k : Key}

theorem samplesOf_ne_nil : Record.samplesOf k rs ≠ [] ↔ ∃ r ∈ rs, r.key = k := by
  simp [Record.samplesOf, List.filter_eq_nil_iff]

theorem Leaves.find?_of_unwritten (h : s.Leaves policy rs outcomes s') (hk : ∀ r ∈ rs, r.key ≠ k) :
    s'.table.find? k.integers = s.table.find? k.integers := by
  have hnil : Record.samplesOf k rs = [] := by
    by_contra hne
    obtain ⟨r, hr, hrk⟩ := samplesOf_ne_nil.1 hne
    exact hk r hr hrk
  have htrial := h.trials k
  rw [hnil, verdicts] at htrial
  exact (Prod.mk.inj (Except.ok.inj htrial)).2.symm

theorem eq_replicate_of_outcomesOf (hl : outcomes.length = rs.length)
    (h : ∀ k, (∃ r ∈ rs, r.key = k) → ∀ o' ∈ outcomesOf k rs outcomes, o' = o) :
    outcomes = .replicate rs.length o := by
  refine List.eq_replicate_iff.2 ⟨hl, fun o' ho => ?_⟩
  have hsnd : ((rs.map Record.key).zip outcomes).map Prod.snd = outcomes := List.map_snd_zip (by simp [hl])
  rw [← hsnd] at ho
  obtain ⟨⟨k, o''⟩, he, rfl⟩ := List.mem_map.1 ho
  refine h k (List.mem_map.1 (List.of_mem_zip he).1) o'' ?_
  exact List.mem_map.2 ⟨_, List.mem_filter.2 ⟨he, by simp⟩, rfl⟩

theorem exists_leaves (h : s.table.Keyed) (hv : ∀ k, (∃ r ∈ rs, r.key = k) → ∃ os final,
      s.verdicts policy (s.table.find? k.integers) (Record.samplesOf k rs) = .ok (os, final)) :
    ∃ outcomes s', s.writeAll policy rs = .ok (outcomes, s') ∧ s.Leaves policy rs outcomes s' := by
  obtain ⟨outcomes, s', hw⟩ : ∃ outcomes s', s.writeAll policy rs = .ok (outcomes, s') := by
    refine exists_writeAll h fun k => ?_
    by_cases hk : ∃ r ∈ rs, r.key = k
    · obtain ⟨os, final, hv⟩ := hv k hk
      exact ⟨_, hv⟩
    · rw [← samplesOf_ne_nil, not_not] at hk
      rw [hk]
      exact ⟨_, rfl⟩
  exact ⟨outcomes, s', hw, writeAll_spec h hw⟩

/-- Records that have been written can be written once more. Each of them is in conflict then; only merging
changes anything, and that in the trials of the records alone. -/
theorem writeAll_again {s₁ : Store} (h : s.table.Keyed) (hw : s.writeAll policy rs = .ok (outcomes, s₁))
    (hm : policy = .merge → s.codec.Faithful ∧ ∀ k samples, s.codec.Finds (s.table.find? k.integers) samples →
      (Matrix.rowsOf samples).length + 2 * ((Record.samplesOf k rs).flatMap Matrix.rowsOf).length < 2 ^ 32) :
    ∃ s₂, s₁.writeAll policy rs = .ok (.replicate rs.length policy.outcome, s₂) ∧
      (policy ≠ .merge → s₂ = s₁) ∧
      (∃ f : Row → Row, s₂.table.rows = s₁.table.rows.map f ∧
        ∀ row, (f row).key = row.key ∧ ((∀ r ∈ rs, row.hasKey r.key.integers ≠ true) → f row = row)) ∧
      (policy = .merge → ∀ r ∈ rs, ∃ samples, s₁.get r.key = .ok (some ⟨r.key, samples⟩) ∧
        s₂.get r.key = .ok (some ⟨r.key, Matrix.merge samples (Matrix.joined (Record.samplesOf r.key rs))⟩)) := by
  have hs₁ := writeAll_spec h hw
  have hcodec : s₁.codec = s.codec := by rw [hs₁.eq]
  have hsame (old : Option Cell) (l : List (Option Matrix)) :
      s₁.verdicts policy old l = s.verdicts policy old l := by
    rw [hs₁.eq, verdicts_withTable]
  have hagain (k : Key) (hk : ∃ r ∈ rs, r.key = k) :=
    verdicts_again (samplesOf_ne_nil.2 hk) (hs₁.trials k) fun hp => ⟨(hm hp).1, (hm hp).2 k⟩
  obtain ⟨outcomes₂, s₂, hw₂, hs₂⟩ : ∃ outcomes₂ s₂, s₁.writeAll policy rs = .ok (outcomes₂, s₂) ∧
      s₁.Leaves policy rs outcomes₂ s₂ := by
    refine exists_leaves hs₁.keyed fun k hk => ?_
    obtain ⟨final, hv, -⟩ := hagain k hk
    exact ⟨_, final, (hsame _ _).trans hv⟩
  -- what the second time leaves in a trial with a record
  have htrial (k : Key) (hk : ∃ r ∈ rs, r.key = k) : ∃ n, outcomesOf k rs outcomes₂ = .replicate n policy.outcome ∧
      (policy ≠ .merge → s₂.table.find? k.integers = s₁.table.find? k.integers) ∧
      (policy = .merge → ∃ cell cell' samples, s₁.table.find? k.integers = some cell ∧ cell.Holds s.codec samples ∧
        s₂.table.find? k.integers = some cell' ∧
        cell'.Holds s.codec (Matrix.merge samples (Matrix.joined (Record.samplesOf k rs)))) := by
    obtain ⟨final, hv, hfinal, hmerge⟩ := hagain k hk
    have he := (hs₂.trials k).symm.trans ((hsame _ _).trans hv)
    obtain ⟨ho, rfl⟩ := Prod.mk.inj (Except.ok.inj he)
    exact ⟨_, ho, hfinal, hmerge⟩
  obtain rfl : outcomes₂ = .replicate rs.length policy.outcome := by
    refine eq_replicate_of_outcomesOf (length_writeAll hw₂) fun k hk o ho => ?_
    obtain ⟨n, hn, -⟩ := htrial k hk
    exact List.eq_of_mem_replicate (hn ▸ ho)
  obtain ⟨f, hrows, hf⟩ := exists_map_of_writeAll hs₁.keyed hw₂ fun o ho => by
    rw [List.eq_of_mem_replicate ho]
    cases policy <;> simp [Policy.outcome]
  refine ⟨s₂, hw₂, fun hp => ?_, ⟨f, hrows, hf⟩, fun hp r hr => ?_⟩
  · have htable : s₂.table = s₁.table := by
      refine hs₁.keyed.eq_of_map hs₂.keyed hrows (fun row => ⟨(hf row).1, fun hr => ?_⟩) fun k => ?_
      · exact (hf row).2 fun r _ => hr r.key
      · by_cases hk : ∃ r ∈ rs, r.key = k
        · obtain ⟨n, -, hkept, -⟩ := htrial k hk
          exact hkept hp
        · exact hs₂.find?_of_unwritten fun r hr hrk => hk ⟨r, hr, hrk⟩
    rw [hs₂.eq, htable]
  · obtain ⟨n, -, -, hmerge⟩ := htrial r.key ⟨r, hr, rfl⟩
    obtain ⟨cell, cell', samples, hf₁, hh₁, hf₂, hh₂⟩ := hmerge hp
    have hcodec₂ : s₂.codec = s.codec := by rw [hs₂.eq, ← hcodec]
    exact ⟨samples, get_eq_some hs₁.keyed hf₁ (hcodec ▸ hh₁), get_eq_some hs₂.keyed hf₂ (hcodec₂ ▸ hh₂)⟩

/-! ### Merging into a new store -/

/-- What a new store has come to when records have been merged into it a number of times: each trial has the
rows of its records as often. -/
structure HasMerged (c : Codec) (rs : List Record) (n : Nat) (s : Store) : Prop where
  eq : s = { inMemory c with table := s.table }
  keyed : s.table.Keyed
  written : ∀ k, (∃ r ∈ rs, r.key = k) → (0 < n → s.table.find? k.integers ≠ none) ∧
    c.Finds (s.table.find? k.integers)
      (Matrix.ofRows? (List.replicate n ((Record.samplesOf k rs).flatMap Matrix.rowsOf)).flatten)
  unwritten : ∀ k, (∀ r ∈ rs, r.key ≠ k) → s.table.find? k.integers = none

theorem hasMerged_inMemory (c : Codec) (rs : List Record) : (inMemory c).HasMerged c rs 0 :=
  ⟨rfl, Table.keyed_empty, fun _ _ => ⟨fun h => absurd h (lt_irrefl 0), .absent⟩, fun _ _ => rfl⟩

/-- The records may be merged once more, as long as the rows of a trial can be counted. -/
theorem HasMerged.step {c : Codec} {n : Nat} (h : s.HasMerged c rs n) (hc : c.Faithful)
    (hsmall : ∀ k, (n + 1) * ((Record.samplesOf k rs).flatMap Matrix.rowsOf).length < 2 ^ 32) :
    ∃ outcomes s', s.writeAll .merge rs = .ok (outcomes, s') ∧ s'.HasMerged c rs (n + 1) := by
  have hcodec : s.codec = c := by rw [h.eq]; rfl
  have hwritable : s.isWritable = true := by rw [h.eq]; rfl
  have hverdicts (k : Key) (hk : ∃ r ∈ rs, r.key = k) :
      ∃ os, s.verdicts .merge (s.table.find? k.integers) (Record.samplesOf k rs) = .ok (os, some (c.cell
        (Matrix.ofRows? (List.replicate (n + 1) ((Record.samplesOf k rs).flatMap Matrix.rowsOf)).flatten))) := by
    obtain ⟨os, hv, -⟩ := verdicts_merge (hcodec ▸ hc) hwritable (samplesOf_ne_nil.2 hk)
      (hcodec ▸ (h.written k hk).2) (by simpa [Nat.add_mul] using hsmall k)
    refine ⟨os, ?_⟩
    rw [hv, hcodec, Matrix.joined, List.flatMap_cons, Matrix.rowsOf_ofRows?, List.replicate_succ',
      List.flatten_append, List.flatten_singleton]
  obtain ⟨outcomes, s', hw, hs⟩ : ∃ outcomes s', s.writeAll .merge rs = .ok (outcomes, s') ∧
      s.Leaves .merge rs outcomes s' := by
    refine exists_leaves h.keyed fun k hk => ?_
    obtain ⟨os, hv⟩ := hverdicts k hk
    exact ⟨os, _, hv⟩
  refine ⟨outcomes, s', hw, by rw [hs.eq, h.eq], hs.keyed, fun k hk => ?_, fun k hk => ?_⟩
  · obtain ⟨os, hv⟩ := hverdicts k hk
    obtain ⟨-, hf⟩ := Prod.mk.inj (Except.ok.inj ((hs.trials k).symm.trans hv))
    rw [hf]
    refine ⟨fun _ => by simp, .stored (hc.holds_cell fun matrix hm => ?_)⟩
    have hrows := Matrix.ofRows?_eq_iff.1 (Option.mem_def.1 hm)
    rw [Matrix.rowCount, ← show _ = matrix.rows from hrows]
    simpa using hsmall k
  · rw [hs.find?_of_unwritten hk, h.unwritten k hk]

end Store

namespace Ingest
open Store
variable {marker pattern : String} {policy : Policy} {entries : List (FileName × Entry)} {s s' : Store}
  {outcomes : List Outcome} {k : Key}

/-- The records of the logs of a directory, in the order of their names. -/
def records (marker pattern : String) (entries : List (FileName × Entry)) : List Record :=
  (matchingLogs pattern entries).filterMap (LogFile.record? marker)

/-- The rows of the logs with a key, one log behind the other in the order of their names. -/
def rowsFor (marker pattern : String) (entries : List (FileName × Entry)) (k : Key) : List Sample :=
  (Record.samplesOf k (records marker pattern entries)).flatMap Matrix.rowsOf

theorem directory_of_writeAll (hf : ∀ f ∈ matchingLogs pattern entries, Passes marker f)
    (hw : s.writeAll policy (records marker pattern entries) = .ok (outcomes, s')) :
    directory marker pattern policy entries s
      = ⟨.ofOutcomes outcomes, (matchingLogs pattern entries).filterMap (LogFile.failure? marker), none, s'⟩ :=
  logs_of_passes hf (insertEach_eq_ok.2 hw)

theorem exists_writeAll_of_ended (h : (directory marker pattern policy entries s).ended = none) :
    (∀ f ∈ matchingLogs pattern entries, Passes marker f) ∧
      ∃ outcomes s', s.writeAll policy (records marker pattern entries) = .ok (outcomes, s') := by
  obtain ⟨outcomes, hrecords, -⟩ := logs_spec h
  exact ⟨passes_of_ended h, outcomes, _, insertEach_eq_ok.1 hrecords⟩

theorem ofOutcomes_replicate (n : Nat) (policy : Policy) :
    Tally.ofOutcomes (.replicate n policy.outcome) =
      match policy with
      | .ignore => ⟨0, n, 0, 0⟩
      | .replace => ⟨0, 0, n, 0⟩
      | .merge => ⟨0, 0, 0, n⟩ := by
  rw [Tally.ofOutcomes_eq]
  cases policy <;> simp [Policy.outcome, List.count_replicate]

theorem hasMerged_iterate {c : Codec} (hc : c.Faithful) (hf : ∀ f ∈ matchingLogs pattern entries, Passes marker f)
    (n : Nat) (hsmall : ∀ k, n * (rowsFor marker pattern entries k).length < 2 ^ 32) :
    let run (s : Store) := (directory marker pattern .merge entries s).store
    (∀ i < n, (directory marker pattern .merge entries (run^[i] (inMemory c))).ended = none) ∧
      (run^[n] (inMemory c)).HasMerged c (records marker pattern entries) n := by
  intro run
  induction n with
  | zero => exact ⟨fun i hi => absurd hi (Nat.not_lt_zero i), hasMerged_inMemory c _⟩
  | succ n ih =>
    obtain ⟨hended, hmerged⟩ := ih fun k =>
      lt_of_le_of_lt (Nat.mul_le_mul_right _ (Nat.le_succ n)) (hsmall k)
    obtain ⟨outcomes, s', hw, hs⟩ := hmerged.step hc hsmall
    have hrun := directory_of_writeAll hf hw
    refine ⟨fun i hi => ?_, ?_⟩
    · rcases Nat.lt_succ_iff_lt_or_eq.1 hi with hi | rfl
      · exact hended i hi
      · rw [hrun]
    · have hstore : run (run^[n] (inMemory c)) = s' := congrArg Report.store hrun
      rwa [Function.iterate_succ_apply', hstore]

/-- A run over a directory that has come to its end comes to its end again, and reports the same failures.
The first policies leave the store as it is then; a merge puts the rows of the logs behind those of their
trials and touches no other. So a new store into which a directory has been merged `n` times has the rows of
its logs `n` times. -/
theorem directory_again (marker pattern : String) (entries : List (FileName × Entry)) :
    (∀ policy (s : Store), s.table.Keyed → (directory marker pattern policy entries s).ended = none →
      (policy = .merge → s.codec.Faithful ∧ ∀ k found, s.get k = .ok found →
        (Matrix.rowsOf (found.bind Record.samples)).length
          + 2 * (rowsFor marker pattern entries k).length < 2 ^ 32) →
      let first := directory marker pattern policy entries s
      let second := directory marker pattern policy entries first.store
      let n := first.tally.total
      second.ended = none ∧ second.failures = first.failures ∧
      (policy = .ignore → second.store = first.store ∧ second.tally = ⟨0, n, 0, 0⟩) ∧
      (policy = .replace → second.store = first.store ∧ second.tally = ⟨0, 0, n, 0⟩) ∧
      (policy = .merge → second.tally = ⟨0, 0, 0, n⟩ ∧
        (∃ f : Row → Row, second.store.table.rows = first.store.table.rows.map f ∧
          ∀ row, (f row).key = row.key ∧
            ((∀ r ∈ records marker pattern entries, row.hasKey r.key.integers ≠ true) → f row = row)) ∧
        ∀ r ∈ records marker pattern entries, ∃ samples,
          first.store.get r.key = .ok (some ⟨r.key, samples⟩) ∧
          second.store.get r.key = .ok (some
            ⟨r.key, Matrix.merge samples (Matrix.ofRows? (rowsFor marker pattern entries r.key))⟩))) ∧
    ∀ (c : Codec) n, c.Faithful → (directory marker pattern .merge entries (inMemory c)).ended = none →
      (∀ k, n * (rowsFor marker pattern entries k).length < 2 ^ 32) →
      let run (s : Store) := (directory marker pattern .merge entries s).store
      (∀ i < n, (directory marker pattern .merge entries (run^[i] (inMemory c))).ended = none) ∧
      (0 < n → ∀ r ∈ records marker pattern entries, (run^[n] (inMemory c)).get r.key = .ok (some
        ⟨r.key, Matrix.ofRows? (List.replicate n (rowsFor marker pattern entries r.key)).flatten⟩)) ∧
      ∀ k, (∀ r ∈ records marker pattern entries, r.key ≠ k) → (run^[n] (inMemory c)).get k = .ok none := by
  refine ⟨fun policy s h hended hm => ?_, fun c n hc hended hsmall => ?_⟩
  · intro first second n
    obtain ⟨hf, outcomes, s₁, hw⟩ := exists_writeAll_of_ended hended
    have hfirst : first = _ := directory_of_writeAll hf hw
    have hn : n = (records marker pattern entries).length := by
      simp only [n, hfirst, Tally.total_ofOutcomes, length_writeAll hw]
    obtain ⟨s₂, hw₂, hkept, hrows, hmerged⟩ := writeAll_again h hw fun hp => by
      obtain ⟨hc, hsmall⟩ := hm hp
      refine ⟨hc, fun k samples hfinds => ?_⟩
      cases hcell : s.table.find? k.integers with
      | none =>
        rw [hcell] at hfinds
        cases hfinds
        exact hsmall k _ (get_eq_none h hcell)
      | some cell =>
        rw [hcell] at hfinds
        cases hfinds with
        | stored hs => exact hsmall k _ (get_eq_some h hcell hs)
    have hstore : first.store = s₁ := congrArg Report.store hfirst
    rw [← hstore] at hw₂
    have hsecond : second = _ := directory_of_writeAll hf hw₂
    have htally := ofOutcomes_replicate n policy
    rw [hsecond, hfirst, ← hn]
    refine ⟨rfl, rfl, fun hp => ?_, fun hp => ?_, fun hp => ?_⟩
    · subst hp
      exact ⟨hkept (by simp), htally⟩
    · subst hp
      exact ⟨hkept (by simp), htally⟩
    · subst hp
      exact ⟨htally, hrows, hmerged rfl⟩
  · intro run
    obtain ⟨hends, hmerged⟩ := hasMerged_iterate hc (passes_of_ended hended) n hsmall
    have hcodec : (run^[n] (inMemory c)).codec = c := congrArg Store.codec hmerged.eq
    refine ⟨hends, fun hn r hr => ?_, fun k hk => get_eq_none hmerged.keyed (hmerged.unwritten k hk)⟩
    obtain ⟨hstored, hfinds⟩ := hmerged.written r.key ⟨r, hr, rfl⟩
    obtain ⟨cell, hcell⟩ := Option.ne_none_iff_exists'.1 (hstored hn)
    rw [hcell] at hfinds
    cases hfinds with
    | stored hs => exact get_eq_some hmerged.keyed hcell (hcodec.symm ▸ hs)

/-- Two logs of one trial and one whose name has no key, merged three times into a new store, and ingested
twice under the policy that keeps what is stored. -/
theorem directory_again_two :
    let bytes (s : String) : List UInt8 := s.toList.map fun c => UInt8.ofNat c.toNat
    let failed : Entry := .file (.bytes (bytes "APP: pmpd Failed"))
    let entries := [(bytes "1_2_3_4_a.log", failed), (bytes "1_2_3_4_b.log", failed), (bytes "x.log", failed)]
    let run (s : Store) := (directory "APP: pmpd" "" .merge entries s).store
    let first := directory "APP: pmpd" "" .ignore entries (inMemory .blob)
    let second := directory "APP: pmpd" "" .ignore entries first.store
    (run^[3] (inMemory .blob)).get ⟨1, 2, 3, 4⟩
      = .ok (some ⟨⟨1, 2, 3, 4⟩, Matrix.ofRows? (List.replicate 6 .failed)⟩) ∧
    second.ended = none ∧ second.store = first.store ∧ second.tally = ⟨0, first.tally.total, 0, 0⟩ := by
  intro bytes failed entries run first second
  let files : List LogFile := [⟨"1_2_3_4_a.log", .ok (bytes "APP: pmpd Failed")⟩,
    ⟨"1_2_3_4_b.log", .ok (bytes "APP: pmpd Failed")⟩, ⟨"x.log", .ok (bytes "APP: pmpd Failed")⟩]
  let r : Record := ⟨⟨1, 2, 3, 4⟩, Matrix.ofRows? [.failed]⟩
  have hlogs (policy : Policy) :
      (logs "APP: pmpd" policy (.start (inMemory .blob)) files).ended = none := by
    cases policy <;> decide +kernel +revert
  have hread : files.filterMap (LogFile.record? "APP: pmpd") = [r, r] := by
    clear hlogs
    decide +kernel +revert
  have hfiles : matchingLogs "" entries = files := by
    rw [matchingLogs, List.mergeSort_of_pairwise (by decide)]
    rfl
  have hended (policy : Policy) : (directory "APP: pmpd" "" policy entries (inMemory .blob)).ended = none := by
    rw [directory, hfiles, hlogs]
  have hrows (k : Key) : rowsFor "APP: pmpd" "" entries k = if r.key = k then [.failed, .failed] else [] := by
    have hown : Matrix.rowsOf r.samples = [.failed] := rfl
    rw [rowsFor, records, hfiles, hread, Record.samplesOf]
    by_cases hk : r.key = k <;> simp [hk, hown]
  obtain ⟨hagain, hmerged⟩ := directory_again "APP: pmpd" "" entries
  obtain ⟨-, hget, -⟩ := hmerged .blob 3 Codec.faithful_blob (hended .merge) fun k => by
    rw [hrows]
    split_ifs <;> decide
  obtain ⟨hends, -, hignored, -⟩ := hagain .ignore (inMemory .blob) Table.keyed_empty (hended .ignore)
    fun h => absurd h (by decide)
  refine ⟨?_, hends, hignored rfl⟩
  have h := hget (by decide) r (by rw [records, hfiles, hread]; exact List.mem_cons_self)
  rwa [hrows, if_pos rfl] at h

end Ingest
end Campaign
