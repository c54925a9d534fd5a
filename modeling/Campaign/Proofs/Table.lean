import Mathlib
import Campaign.Proofs.Schema
import Campaign.Table.Query

/-!
# Keyed tables

A table is `Keyed` when it has the standard schema and the key of a trial is in one row at most, as
integers: the key of the table sees to the one, the kind of its columns to the other. What stands in the
cells for samples is left open, bytes that no codec reads, texts and numbers too, and so is every row
without the key of a trial. No row that a standard table takes from elsewhere breaks this
(`Keyed.foldlM_addWith`, in the module on planted rows). Looking up, adding and updating then do what they
do to a list of pairs with distinct keys (`find?_eq_some`, `add_eq`, `update_eq`).
-/

namespace Campaign

namespace Row
variable {key key' : Setting Int} {cell cell' : Cell} {row : Row}

/-- The row with other samples, if it has a key. -/
def overwrite (key : Setting Int) (cell : Cell) (row : Row) : Row :=
  if row.hasKey key then { row with samples := cell } else row

@[simp] theorem key_overwrite : (row.overwrite key cell).key = row.key := by
  unfold overwrite; split <;> rfl

@[simp] theorem hasKey_overwrite : (row.overwrite key cell).hasKey key' = row.hasKey key' := by
  simp only [hasKey, key_overwrite]

theorem eq_ofIntegers (h : row.key = key.map .integer) : row = .ofIntegers key row.samples := by
  rw [ofIntegers, ← h]

theorem overwrite_ofIntegers :
    (ofIntegers key' cell').overwrite key cell
      = ofIntegers key' (if key' = key then cell else cell') := by
  simp only [overwrite, hasKey_ofIntegers]; split_ifs <;> rfl

end Row

namespace Table

/-- The table has the standard schema, and the key of a trial is in one row at most, as integers. -/
structure Keyed (t : Table) : Prop where
  schema : t.schema = .standard
  integers : ∀ row ∈ t.rows, ∀ k : Key, row.hasKey k.integers = true → row.key = k.integers.map .integer
  distinct : ∀ k : Key, t.rows.countP (Row.hasKey k.integers) ≤ 1

/-- The table with one more row at its end. -/
def extend (t : Table) (key : Setting Int) (cell : Cell) : Table :=
  { t with rows := t.rows ++ [.ofIntegers key cell] }

/-- The table with other samples in the row with a key. -/
def overwrite (t : Table) (key : Setting Int) (cell : Cell) : Table :=
  { t with rows := t.rows.map (Row.overwrite key cell) }

/-- Going through rows of which one at most has the key, as integers, `updateRows` only writes samples. -/
theorem updateRows_standard {key : Setting Int} {cell : Cell} (fuel : Nat) (done rest : List Row)
    (hf : rest.length ≤ fuel) (hi : ∀ row ∈ rest, row.hasKey key = true → row.key = key.map .integer)
    (hd : (done ++ rest).countP (Row.hasKey key) ≤ 1) :
    updateRows .standard key cell fuel done rest
      = .ok (done.reverse ++ rest.map (Row.overwrite key cell)) := by
  induction rest generalizing fuel done with
  | nil => cases fuel <;> simp [updateRows]
  | cons row rest ih =>
    obtain ⟨fuel, rfl⟩ : ∃ n, fuel = n + 1 := ⟨fuel - 1, by simp at hf; omega⟩
    have hd : (row :: (done ++ rest)).countP (Row.hasKey key) ≤ 1 :=
      List.perm_middle.countP_eq (Row.hasKey key) ▸ hd
    -- the row goes over to `done`, rewritten or not, with the key it has
    have step : updateRows .standard key cell fuel (row.overwrite key cell :: done) rest
        = .ok (done.reverse ++ (row :: rest).map (Row.overwrite key cell)) := by
      rw [ih fuel _ (by simpa using hf) (fun row' hm => hi row' (List.mem_cons_of_mem _ hm))
        (by simpa [List.countP_cons] using hd)]
      simp
    rw [updateRows]
    split_ifs with h
    · rw [Row.overwrite, if_pos h] at step
      have hrow : ({ row with samples := cell } : Row) = .ofIntegers key cell := by
        rw [hi row List.mem_cons_self h]; rfl
      have hfree : ∀ row' ∈ done ++ rest, row'.hasKey key ≠ true := by
        rw [List.countP_cons_of_pos h] at hd
        exact List.countP_eq_zero.1 (by omega)
      have hs : Schema.standard.settle none false ⟨done, rest⟩ (.ofIntegers key cell)
          = .ok (some (.ofIntegers key cell, ⟨done, rest⟩)) := Schema.settle_standard hfree
      rw [hrow] at step ⊢
      rw [hs]
      exact step
    · rwa [Row.overwrite, if_neg h] at step

theorem keyed_empty : empty.Keyed :=
  ⟨rfl, by simp [empty], by simp [empty]⟩

namespace Keyed
variable {t : Table} {k : Key} {key : Setting Int} {cell : Cell}

theorem not_hasKey_of_find? (hf : t.find? key = none) : ∀ row ∈ t.rows, row.hasKey key ≠ true := by
  rwa [find?, Option.map_eq_none_iff, List.find?_eq_none] at hf

/-- The rows with the key of a trial: none, or one of integers. -/
theorem filter_hasKey (h : t.Keyed) (k : Key) : t.rows.filter (Row.hasKey k.integers)
    = (t.find? k.integers).toList.map (Row.ofIntegers k.integers) := by
  have hl := h.distinct k
  rw [List.countP_eq_length_filter] at hl
  rw [find?, ← List.head?_filter]
  rcases hrows : t.rows.filter (Row.hasKey k.integers) with _ | ⟨row, _ | ⟨row', rest⟩⟩
  · rfl
  · obtain ⟨hm, hk⟩ := List.mem_filter.1 (hrows ▸ List.mem_singleton_self row :
      row ∈ t.rows.filter (Row.hasKey k.integers))
    exact congrArg (fun row => [row]) (Row.eq_ofIntegers (h.integers row hm k hk))
  · rw [hrows] at hl
    simp at hl

theorem find?_eq_some (h : t.Keyed) :
    t.find? k.integers = some cell ↔ .ofIntegers k.integers cell ∈ t.rows := by
  have hmem : .ofIntegers k.integers cell ∈ t.rows ↔
      .ofIntegers k.integers cell ∈ t.rows.filter (Row.hasKey k.integers) := by simp
  rw [hmem, h.filter_hasKey]
  cases t.find? k.integers <;> simp [eq_comm]

theorem eq_of_hasKey (h : t.Keyed) {row : Row} (hm : row ∈ t.rows) (hk : row.hasKey k.integers = true)
    (hf : t.find? k.integers = some cell) : row = .ofIntegers k.integers cell := by
  have hmem := List.mem_filter.2 ⟨hm, hk⟩
  rw [h.filter_hasKey, hf] at hmem
  exact List.mem_singleton.1 hmem

/-- A row with a new key goes to the end of the table. -/
theorem add_eq (h : t.Keyed) (hf : t.find? key = none) :
    t.add (.ofIntegers key cell) = .ok (t.extend key cell) := by
  have hs : Schema.standard.settle none true ⟨t.rows, []⟩ (.ofIntegers key cell)
      = .ok (some (.ofIntegers key cell, ⟨t.rows, []⟩)) :=
    Schema.settle_standard (by simpa using not_hasKey_of_find? hf)
  rw [add, addWith, h.schema, hs, ← h.schema]; rfl

/-- Only the samples in the row with the key change. -/
theorem update_eq (h : t.Keyed) : t.update k.integers cell = .ok (t.overwrite k.integers cell) := by
  rw [update, h.schema, updateRows_standard _ _ _ le_rfl (fun row hm => h.integers row hm k)
    (by simpa using h.distinct k), ← h.schema]; rfl

theorem extend (h : t.Keyed) (hf : t.find? k.integers = none) : (t.extend k.integers cell).Keyed := by
  refine ⟨h.schema, fun row hm k' hk => ?_, fun k' => ?_⟩
  · rcases List.mem_append.1 hm with hm | hm
    · exact h.integers row hm k' hk
    · obtain rfl := List.mem_singleton.1 hm
      rw [← Row.hasKey_ofIntegers.1 hk]; rfl
  · rw [Table.extend, List.countP_append, List.countP_singleton]
    split_ifs with hk
    · rw [← Row.hasKey_ofIntegers.1 hk, List.countP_eq_zero.2 (not_hasKey_of_find? hf)]
    · exact h.distinct k'

theorem overwrite (h : t.Keyed) : (t.overwrite key cell).Keyed := by
  refine ⟨h.schema, fun row hm k' hk => ?_, fun k' => ?_⟩
  · obtain ⟨old, ho, rfl⟩ := List.mem_map.1 hm
    rw [Row.hasKey_overwrite] at hk
    rw [Row.key_overwrite, h.integers old ho k' hk]
  · have hkeys : Row.hasKey k'.integers ∘ Row.overwrite key cell = Row.hasKey k'.integers :=
      funext fun _ => Row.hasKey_overwrite
    rw [Table.overwrite, List.countP_map, hkeys]
    exact h.distinct k'

end Keyed
end Table
end Campaign
