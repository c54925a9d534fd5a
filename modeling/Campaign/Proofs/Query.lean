import Mathlib
import Campaign.Proofs.Reading
import Campaign.Store

/-!
# Queries over any rows

Whatever a table holds, a query fails only on rows that its filter reaches, and gives the records of these
and no others (`query_spec`). Nothing is asked of the cells for samples, and of the integers before them
only that no two rows have the same ones.
-/

namespace Campaign

namespace Table
variable {c : Codec} {r : Record}

theorem mem_of_readRows {rows : List Row} {rs : List Record} (h : readRows c rows = .ok rs) :
    r ∈ rs ↔ ∃ row ∈ rows, readRow c row = .ok r := by
  have hmap : rows.map (readRow c) = rs.map .ok := mapM_eq_ok_iff.1 h
  rw [← List.mem_map, hmap, List.mem_map]
  simp

/-- Rows of integers keep their keys when they are read. -/
theorem keys_of_readRows {rows : List Row} {rs : List Record} (h : readRows c rows = .ok rs)
    (hi : ∀ row ∈ rows, ∃ key cell, row = .ofIntegers key cell) :
    (rs.map fun r => r.key.integers.map Cell.integer) = rows.map Row.key := by
  have hmap : rows.map (readRow c) = rs.map .ok := mapM_eq_ok_iff.1 h
  clear h
  induction rows generalizing rs with
  | nil => cases rs with
    | nil => rfl
    | cons r rs => cases hmap
  | cons row rows ih =>
    cases rs with
    | nil => cases hmap
    | cons r rs =>
      obtain ⟨hrow, hrows⟩ := List.cons.inj hmap
      obtain ⟨key, cell, rfl⟩ := hi row List.mem_cons_self
      rw [List.map_cons, List.map_cons, ih (fun row hm => hi row (List.mem_cons_of_mem _ hm)) hrows,
        (readRow_eq_ok.1 hrow).1]
      rfl

theorem nodup_of_readRows {rows : List Row} {rs : List Record} (h : readRows c rows = .ok rs)
    (hi : ∀ row ∈ rows, ∃ key cell, row = .ofIntegers key cell) (hd : (rows.map Row.key).Nodup) :
    (rs.map Record.key).Nodup := by
  rw [← keys_of_readRows h hi] at hd
  exact List.Nodup.of_map (fun k : Key => k.integers.map Cell.integer) (by rwa [List.map_map])

end Table

namespace Store
variable {s : Store} {f : Filter} {rs : List Record} {r : Record}

theorem exists_query_eq_ok (hi : ∀ row ∈ s.table.rows, ∃ key cell, row = .ofIntegers key cell) :
    (∃ rs, s.query f = .ok rs) ↔
      ∀ key cell, .ofIntegers key cell ∈ s.table.rows → f.Reaches key →
        (∀ p, 0 ≤ key.get p ∧ key.get p ≤ Key.greatestField) ∧ ∃ samples, cell.Holds s.codec samples := by
  have hrow (key : Setting Int) (cell : Cell) :
      (∃ r, Table.readRow s.codec (.ofIntegers key cell) = .ok r) ↔
        (∀ p, 0 ≤ key.get p ∧ key.get p ≤ Key.greatestField) ∧ ∃ samples, cell.Holds s.codec samples := by
    simp only [Table.readRow_eq_ok, ← Key.exists_integers_iff]
    constructor
    · rintro ⟨r, hk, hs⟩; exact ⟨⟨r.key, hk⟩, r.samples, hs⟩
    · rintro ⟨⟨k, hk⟩, samples, hs⟩; exact ⟨⟨k, samples⟩, hk, hs⟩
  rw [query, Table.query_eq, Table.readRows, exists_mapM_eq_ok]
  constructor
  · intro h key cell hm hf
    exact (hrow key cell).1 (h _ (List.mem_filter.2 ⟨hm, Table.satisfies_ofIntegers.2 hf⟩))
  · intro h row hm
    obtain ⟨hm, hf⟩ := List.mem_filter.1 hm
    obtain ⟨key, cell, rfl⟩ := hi row hm
    exact (hrow key cell).2 (h key cell hm (Table.satisfies_ofIntegers.1 hf))

theorem mem_query (hi : ∀ row ∈ s.table.rows, ∃ key cell, row = .ofIntegers key cell)
    (h : s.query f = .ok rs) :
    r ∈ rs ↔ f.takes r.key = true ∧
      ∃ cell, .ofIntegers r.key.integers cell ∈ s.table.rows ∧ cell.Holds s.codec r.samples := by
  rw [query, Table.query_eq] at h
  rw [Table.mem_of_readRows h]
  constructor
  · rintro ⟨row, hm, hr⟩
    obtain ⟨hm, hf⟩ := List.mem_filter.1 hm
    obtain ⟨key, cell, rfl⟩ := hi row hm
    obtain ⟨rfl, hs⟩ := Table.readRow_eq_ok.1 hr
    exact ⟨Filter.reaches_integers.1 (Table.satisfies_ofIntegers.1 hf), cell, hm, hs⟩
  · rintro ⟨hf, cell, hm, hs⟩
    refine ⟨_, List.mem_filter.2 ⟨hm, ?_⟩, Table.readRow_eq_ok.2 ⟨rfl, hs⟩⟩
    exact Table.satisfies_ofIntegers.2 (Filter.reaches_integers.2 hf)

theorem nodup_query (hi : ∀ row ∈ s.table.rows, ∃ key cell, row = .ofIntegers key cell)
    (hd : (s.table.rows.map Row.key).Nodup) (h : s.query f = .ok rs) : (rs.map Record.key).Nodup := by
  rw [query, Table.query_eq] at h
  exact Table.nodup_of_readRows h (fun row hm => hi row (List.mem_of_mem_filter hm))
    (hd.sublist (List.filter_sublist.map _))

theorem query_any : s.query .any = Table.readRows s.codec s.table.rows := by
  have hall : ∀ row ∈ s.table.rows, Table.satisfies Filter.any.conditions row = true := fun _ _ => rfl
  rw [query, Table.query_eq, List.filter_eq_self.2 hall]

/-! ### The record of one key -/

theorem satisfies_exact (k : Key) : Table.satisfies (Filter.exact k).conditions = Row.hasKey k.integers := by
  have hget (p : Parameter) : (Filter.exact k).get p = some (k.get p) := by simp [Filter.exact, Setting.map]
  funext row
  simp only [Table.satisfies, Filter.conditions, hget, Option.map_some, List.all_filterMap, Row.hasKey,
    Key.get_integers]

theorem get_eq_none (h : s.table.Keyed) {k : Key} (hf : s.table.find? k.integers = none) :
    s.get k = .ok none := by
  rw [get, Table.get, Table.query_eq, satisfies_exact, h.filter_hasKey, hf]
  rfl

theorem get_eq_some (h : s.table.Keyed) {k : Key} {cell : Cell} {samples : Option Matrix}
    (hf : s.table.find? k.integers = some cell) (hs : cell.Holds s.codec samples) :
    s.get k = .ok (some ⟨k, samples⟩) := by
  have hrow : Table.readRow s.codec (.ofIntegers k.integers cell) = .ok ⟨k, samples⟩ :=
    Table.readRow_eq_ok.2 ⟨rfl, hs⟩
  rw [get, Table.get, Table.query_eq, satisfies_exact, h.filter_hasKey, hf]
  simp [Table.readRows, hrow, Except.map]

/-- Of records with one key, each in the list only once, the first is the only one. -/
theorem head?_eq_some {k : Key} (hd : (rs.map Record.key).Nodup) (hk : ∀ r ∈ rs, r.key = k) :
    rs.head? = some r ↔ r ∈ rs := by
  cases rs with
  | nil => simp
  | cons r₁ rs =>
    refine ⟨fun h => List.mem_of_mem_head? (Option.mem_def.2 h), fun h => ?_⟩
    rcases List.mem_cons.1 h with rfl | h
    · rfl
    · refine absurd (List.mem_map.2 ⟨r, h, ?_⟩) (List.nodup_cons.1 hd).1
      rw [hk r (List.mem_cons_of_mem _ h), hk r₁ List.mem_cons_self]

/-- Whatever a table holds under integers of their own, a query gives the records of the keys that its
filter takes, each once. It fails only where the filter reaches a row with integers that no key has or a
cell without samples; what it does not reach does no harm. The record of one key is found by the query for
just that key, and with the same fault where that fails. -/
theorem query_spec (s : Store) (hi : ∀ row ∈ s.table.rows, ∃ key cell, row = .ofIntegers key cell)
    (hd : (s.table.rows.map Row.key).Nodup) :
    (∀ f : Filter,
      ((∃ rs, s.query f = .ok rs) ↔
        ∀ key cell, .ofIntegers key cell ∈ s.table.rows → f.Reaches key →
          (∀ p, 0 ≤ key.get p ∧ key.get p ≤ 4294967295) ∧ ∃ samples, cell.Holds s.codec samples) ∧
      ∀ rs, s.query f = .ok rs →
        (rs.map Record.key).Nodup ∧
        ∀ r, r ∈ rs ↔ f.takes r.key = true ∧
          ∃ cell, .ofIntegers r.key.integers cell ∈ s.table.rows ∧ cell.Holds s.codec r.samples) ∧
    ∀ k : Key,
      (∀ fault, s.get k = .error fault ↔ s.query (.exact k) = .error fault) ∧
      ∀ found, s.get k = .ok found → ∀ r, found = some r ↔ r.key = k ∧
        ∃ cell, .ofIntegers k.integers cell ∈ s.table.rows ∧ cell.Holds s.codec r.samples := by
  refine ⟨fun f => ⟨exists_query_eq_ok hi, fun rs h => ⟨nodup_query hi hd h, fun r => mem_query hi h⟩⟩,
    fun k => ⟨fun fault => map_eq_error, fun found h r => ?_⟩⟩
  obtain ⟨rs, hq, rfl⟩ := map_eq_ok.1 h
  have hmem (r : Record) : r ∈ rs ↔ r.key = k ∧
      ∃ cell, .ofIntegers k.integers cell ∈ s.table.rows ∧ cell.Holds s.codec r.samples := by
    rw [mem_query hi hq, Filter.takes_exact]
    constructor
    · rintro ⟨rfl, hr⟩; exact ⟨rfl, hr⟩
    · rintro ⟨rfl, hr⟩; exact ⟨rfl, hr⟩
  rw [head?_eq_some (nodup_query hi hd hq) fun r hr => ((hmem r).1 hr).1, hmem]

/-- Rows that no trial can have left: bytes that no codec reads, an integer out of range and a text. A
query that does not reach them succeeds, and one that reaches the bad bytes fails. -/
theorem query_planted :
    let s : Store := { codec := .blob, table := ⟨.standard,
      [.ofIntegers ⟨1, 50, 64, 1024⟩ (.blob [0]), .ofIntegers ⟨2, 80, 64, 1024⟩ .absent,
        .ofIntegers ⟨-1, 50, 64, 1024⟩ .absent, .ofIntegers ⟨3, 50, 128, 1024⟩ (.text "x")]⟩ }
    (∃ rs, s.query (Filter.any.want .ratio 80) = .ok rs) ∧
      (¬∃ rs, s.query (Filter.any.want .interval 1) = .ok rs) ∧
      ∀ found, s.get ⟨2, 80, 64, 1024⟩ = .ok found → found = some ⟨⟨2, 80, 64, 1024⟩, none⟩ := by
  intro s
  have hi : ∀ row ∈ s.table.rows, ∃ key cell, row = .ofIntegers key cell := by
    intro row hm
    simp only [s, List.mem_cons, List.not_mem_nil, or_false] at hm
    rcases hm with rfl | rfl | rfl | rfl <;> exact ⟨_, _, rfl⟩
  obtain ⟨hquery, hget⟩ := query_spec s hi (by decide)
  refine ⟨(hquery _).1.2 fun key cell hm hf => ?_, fun h => ?_, fun found h => ?_⟩
  · have hratio : key.ratio = 80 := hf .ratio 80 rfl
    simp only [s, List.mem_cons, List.not_mem_nil, or_false, Row.ofIntegers_inj] at hm
    rcases hm with ⟨rfl, rfl⟩ | ⟨rfl, rfl⟩ | ⟨rfl, rfl⟩ | ⟨rfl, rfl⟩
    · cases hratio
    · exact ⟨fun p => by cases p <;> decide, none, .absent⟩
    · cases hratio
    · cases hratio
  · have hf : (Filter.any.want .interval 1).Reaches ⟨1, 50, 64, 1024⟩ := by
      intro p v hv
      cases p with
      | interval => cases hv; rfl
      | ratio | unit | size => cases hv
    obtain ⟨-, samples, hs⟩ := (hquery _).1.1 h ⟨1, 50, 64, 1024⟩ (.blob [0]) (by simp [s]) hf
    cases hs with
    | blob hb => cases hb
  · exact ((hget ⟨2, 80, 64, 1024⟩).2 found h _).2 ⟨rfl, .absent, .tail _ (.head _), .absent⟩

end Store
end Campaign
