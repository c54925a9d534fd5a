import Mathlib
import Campaign.Proofs.History
import Campaign.Proofs.Query
import Campaign.Proofs.Trials

/-!
# Tables of trials and their catalogue

The catalogue lists the values that the rows have for each parameter, each once and in ascending order. It
does not look at the cells for samples, which may hold anything. Whatever a store on a table of trials is
asked, the table stays one (`ofTrials_after`), so the catalogue goes with what queries find in any store that
started out empty (`catalogue_spec`).
-/

namespace Campaign

namespace Table
variable {t : Table} {k : Key} {cell : Cell}

theorem ofTrials_empty : empty.OfTrials :=
  ⟨rfl, by simp [empty], by simp [empty]⟩

namespace OfTrials

theorem extend (h : t.OfTrials) (hf : t.find? k.integers = none) :
    (t.extend k.integers cell).OfTrials := by
  refine ⟨h.schema, fun row hm => ?_, ?_⟩
  · rcases List.mem_append.1 hm with hm | hm
    · exact h.keys row hm
    · obtain rfl := List.mem_singleton.1 hm
      exact ⟨k, rfl⟩
  · rw [Table.extend, List.map_append, List.map_singleton, List.nodup_append_comm, List.singleton_append,
      List.nodup_cons]
    refine ⟨fun hm => ?_, h.nodup⟩
    obtain ⟨row, hm, hk⟩ := List.mem_map.1 hm
    exact Keyed.not_hasKey_of_find? hf row hm ((h.hasKey_iff hm).2 hk)

theorem overwrite {key : Setting Int} (h : t.OfTrials) : (t.overwrite key cell).OfTrials := by
  have hkeys : (t.overwrite key cell).rows.map Row.key = t.rows.map Row.key := by
    rw [Table.overwrite, List.map_map]
    exact List.map_congr_left fun row _ => Row.key_overwrite
  refine ⟨h.schema, fun row hm => ?_, hkeys ▸ h.nodup⟩
  obtain ⟨old, ho, rfl⟩ := List.mem_map.1 hm
  rw [Row.key_overwrite]
  exact h.keys old ho

theorem set (h : t.OfTrials) : (t.set k cell).OfTrials := by
  unfold Table.set
  split_ifs with hf
  · exact h.overwrite
  · exact h.extend (Option.not_isSome_iff_eq_none.1 hf)

end OfTrials

/-! ### The values of rows -/

theorem exists_keys (h : ∀ row ∈ t.rows, ∃ k : Key, row.key = k.integers.map .integer) :
    ∃ ks : List Key, t.rows.map Row.key = ks.map fun k => k.integers.map Cell.integer := by
  have hrange : t.rows.map Row.key ∈ Set.range (List.map fun k : Key => k.integers.map Cell.integer) := by
    rw [Set.range_list_map]
    intro key hkey
    obtain ⟨row, hm, rfl⟩ := List.mem_map.1 hkey
    obtain ⟨k, hk⟩ := h row hm
    exact ⟨k, hk.symm⟩
  obtain ⟨ks, hks⟩ := hrange
  exact ⟨ks, hks.symm⟩

theorem pairwise_lt_sort (s : Finset UInt32) : (s.sort (· ≤ ·)).Pairwise (· < ·) := by
  have hdistinct : (s.sort (· ≤ ·)).Pairwise (· ≠ ·) := s.sort_nodup _
  exact ((s.pairwise_sort _).and hdistinct).imp fun ⟨hle, hne⟩ => UInt32.lt_of_le_of_ne hle hne

theorem exists_catalogue (h : ∀ row ∈ t.rows, ∃ k : Key, row.key = k.integers.map .integer) :
    ∃ lists : Catalogue, t.catalogue = .ok lists ∧ ∀ p, (lists.get p).Pairwise (· < ·) ∧
      ∀ v : UInt32, v ∈ lists.get p ↔ ∃ row ∈ t.rows, row.key.get p = .integer v.toNat := by
  obtain ⟨ks, hks⟩ := exists_keys h
  refine ⟨_, catalogue_of_fieldValues fun p => fieldValues_of_keys hks p, fun p => ?_⟩
  rw [Setting.get_ofFn]
  refine ⟨pairwise_lt_sort _, fun v => ?_⟩
  calc v ∈ (ks.map (·.get p)).toFinset.sort (· ≤ ·)
      ↔ ∃ k ∈ ks, k.get p = v := by simp
    _ ↔ ∃ key ∈ ks.map fun k => k.integers.map Cell.integer, key.get p = .integer v.toNat := by
        simp [Setting.map, UInt32.toNat_inj]
    _ ↔ ∃ row ∈ t.rows, row.key.get p = .integer v.toNat := by rw [← hks]; simp

end Table

namespace Store
variable {s s' : Store} {policy : Policy} {r : Record} {rs : List Record} {p : Parameter} {v : UInt32}

theorem query_eq_nil {f : Filter} :
    s.query f = .ok [] ↔ ∀ row ∈ s.table.rows, ¬Table.satisfies f.conditions row = true := by
  rw [query, Table.query_eq, Table.readRows, mapM_eq_ok_iff, List.map_nil, List.map_eq_nil_iff,
    List.filter_eq_nil_iff]

theorem satisfies_want {row : Row} :
    Table.satisfies (Filter.any.want p v).conditions row = true ↔ (row.key.get p).isWorth v.toNat = true := by
  cases p <;> simp [Table.satisfies, Filter.conditions, Filter.any, Filter.want, Parameter.all, Setting.get,
    Setting.set, Setting.ofFn]

theorem query_want_ne_nil (h : ∀ row ∈ s.table.rows, ∃ k : Key, row.key = k.integers.map .integer) :
    s.query (Filter.any.want p v) ≠ .ok [] ↔ ∃ row ∈ s.table.rows, row.key.get p = .integer v.toNat := by
  rw [Ne, query_eq_nil]
  push Not
  refine exists_congr fun row => and_congr_right fun hm => ?_
  obtain ⟨k, hk⟩ := h row hm
  rw [satisfies_want, hk]
  simp [Cell.isWorth, Setting.map]

/-! ### Tables stay tables of trials -/

theorem ofTrials_write (h : s.table.OfTrials) {outcome : Outcome} (hw : s.write policy r = .ok (outcome, s')) :
    s'.table.OfTrials := by
  obtain ⟨cell, -, rfl⟩ := (write_eq_ok h.keyed).1 hw
  exact h.set

theorem ofTrials_writeAll (h : s.table.OfTrials) {outcomes : List Outcome}
    (hw : s.writeAll policy rs = .ok (outcomes, s')) : s'.table.OfTrials := by
  induction rs generalizing s outcomes with
  | nil =>
    obtain ⟨-, rfl⟩ := writeAll_nil_eq_ok.1 hw
    exact h
  | cons r rs ih =>
    obtain ⟨_, s₁, _, hr, hrest, -⟩ := writeAll_cons_eq_ok.1 hw
    exact ih (ofTrials_write h hr) hrest

/-- One request keeps to tables of trials, whether it succeeds or not. -/
theorem ofTrials_answer (h : s.table.OfTrials) (q : Request) : (s.answer q).2.table.OfTrials := by
  cases q with
  | insert policy r =>
    rw [answer, insert]
    cases hw : s.write policy r with
    | error fault => exact h
    | ok written => exact ofTrials_write h hw
  | insertMany policy rs =>
    rw [answer, insertMany]
    cases hw : s.writeAll policy rs with
    | error fault => exact h
    | ok written => exact ofTrials_writeAll h hw
  | reopen =>
    have hlayout : s.table.schema.checkLayout = .ok () := by rw [h.schema]; rfl
    rw [answer, openOn, content, Table.open?, hlayout]
    exact h
  | get | query | catalogue | failedRecords | count => exact h

theorem ofTrials_after (h : s.table.OfTrials) (qs : List Request) : (s.after qs).table.OfTrials := by
  induction qs generalizing s with
  | nil => exact h
  | cons q qs ih => exact ih (ofTrials_answer h q)

/-- Where every row has the key of a trial, the catalogue lists for each parameter the values that the rows
have, each once and in ascending order, whatever stands in the cells for samples. In a store that started out
empty these are the values that a query finds something for. -/
theorem catalogue_spec :
    (∀ s : Store, (∀ row ∈ s.table.rows, ∃ k : Key, row.key = k.integers.map .integer) →
      ∃ lists : Catalogue, s.catalogue = .ok lists ∧ ∀ p, (lists.get p).Pairwise (· < ·) ∧
        ∀ v : UInt32, v ∈ lists.get p ↔ ∃ row ∈ s.table.rows, row.key.get p = .integer v.toNat) ∧
    ∀ (c : Codec) (qs : List Request), ∃ lists : Catalogue, ((inMemory c).after qs).catalogue = .ok lists ∧
      ∀ p v, (v ∈ lists.get p ↔ ((inMemory c).after qs).query (Filter.any.want p v) ≠ .ok []) ∧
        (c.Faithful → (∀ m ∈ Archive.trace ∅ qs, m.IsSmall) →
          ∃ rs, ((inMemory c).after qs).query (Filter.any.want p v) = .ok rs) := by
  refine ⟨fun s h => Table.exists_catalogue h, fun c qs => ?_⟩
  have htrials : ((inMemory c).after qs).table.OfTrials := ofTrials_after Table.ofTrials_empty qs
  obtain ⟨lists, hlists, hvalues⟩ := Table.exists_catalogue htrials.keys
  refine ⟨lists, hlists, fun p v => ⟨?_, fun hc hm => ?_⟩⟩
  · rw [(hvalues p).2 v, query_want_ne_nil htrials.keys]
  · obtain ⟨hafter, hcodec, hsmall, -⟩ := (represents_inMemory c).after hc hm
    obtain ⟨rs, hquery, -⟩ := hafter.query (hcodec ▸ hc) hsmall (Filter.any.want p v)
    exact ⟨rs, hquery⟩

/-- Bytes that no codec has written beside a trial that failed, and a run that leaves two trials. -/
theorem catalogue_planted :
    let s : Store := { codec := .blob, table := ⟨.standard,
      [.ofIntegers ⟨3, 50, 64, 1024⟩ (.blob [0]), .ofIntegers ⟨1, 80, 64, 1024⟩ .absent]⟩ }
    let qs : List Request := [.insertMany .ignore [⟨⟨2, 50, 256, 1024⟩, none⟩, ⟨⟨1, 50, 256, 1024⟩, none⟩],
      .insert .merge ⟨⟨2, 50, 256, 1024⟩, none⟩]
    (∃ lists, s.catalogue = .ok lists ∧ lists.interval.Pairwise (· < ·) ∧ 3 ∈ lists.interval) ∧
    ∃ lists, ((inMemory .blob).after qs).catalogue = .ok lists ∧ 1 ∈ lists.interval ∧ 3 ∉ lists.interval ∧
      ∃ rs, ((inMemory .blob).after qs).query (Filter.any.want .interval 1) = .ok rs := by
  intro s qs
  obtain ⟨hany, hrun⟩ := catalogue_spec
  constructor
  · obtain ⟨lists, hlists, hvalues⟩ := hany s fun row hm => by
      simp only [s, List.mem_cons, List.not_mem_nil, or_false] at hm
      rcases hm with rfl | rfl
      · exact ⟨⟨3, 50, 64, 1024⟩, rfl⟩
      · exact ⟨⟨1, 80, 64, 1024⟩, rfl⟩
    obtain ⟨hsorted, hmem⟩ := hvalues .interval
    exact ⟨lists, hlists, hsorted, (hmem 3).2 ⟨_, .head _, rfl⟩⟩
  · obtain ⟨lists, hlists, hvalues⟩ := hrun .blob qs
    have hfound : ((inMemory .blob).after qs).query (Filter.any.want .interval 1)
        = .ok [⟨⟨1, 50, 256, 1024⟩, none⟩] := rfl
    let m₁ : Archive := Finmap.insert ⟨1, 50, 256, 1024⟩ none (Finmap.insert ⟨2, 50, 256, 1024⟩ none ∅)
    let m₂ : Archive := Finmap.insert ⟨2, 50, 256, 1024⟩ none m₁
    have h₁ : m₁.IsSmall := (Archive.isSmall_empty.insert (by simp)).insert (by simp)
    have h₂ : m₂.IsSmall := h₁.insert (by simp)
    have htrace : Archive.trace ∅ qs = [∅, m₁, m₂] := rfl
    refine ⟨lists, hlists, (hvalues .interval 1).1.2 (by simp [hfound]), fun h => ?_,
      (hvalues .interval 1).2 Codec.faithful_blob ?_⟩
    · exact (hvalues .interval 3).1.1 h rfl
    · rw [htrace]
      simp [Archive.isSmall_empty, h₁, h₂]

end Store
end Campaign
