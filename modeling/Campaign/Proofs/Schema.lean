import Mathlib
import Campaign.Schema.Rule

/-!
# What schemas make of rows

The standard schema takes every row of integers as it is, unless another row has the same key. A
schema that `KeepsRows` refuses what breaks its rules: it never leaves out the row that is written
and never removes the ones beside it.
-/

namespace Campaign

namespace Cell

theorem compareIntegers_eq_iff {m n : Int} : compareIntegers m n = .eq ↔ m = n := by
  unfold compareIntegers; split_ifs <;> simp_all; omega

/-- What is the same as an integer is worth that integer. -/
theorem isWorth_of_same {c : Collation} {n : Int} {cell : Cell} (h : same c (.integer n) cell = true) :
    cell.isWorth n = true := by
  simp only [same, Bool.and_eq_true, beq_iff_eq] at h
  obtain ⟨-, h⟩ := h
  cases cell with
  | integer m => rw [order, compareIntegers_eq_iff] at h; simp [isWorth, h]
  | real v => rw [order, compareIntegers_eq_iff] at h; simp [isWorth, h]
  | absent | text s | blob bytes => simp [order, rank, compareIntegers] at h

end Cell

namespace Row
variable {key key' : Setting Int} {cell cell' : Cell} {row : Row}

@[simp] theorem samples_ofIntegers : (ofIntegers key cell).samples = cell := rfl

@[simp] theorem get_key_ofIntegers (p : Parameter) :
    (ofIntegers key cell).key.get p = .integer (key.get p) := by
  simp [ofIntegers, Setting.map]

@[simp] theorem hasKey_ofIntegers : (ofIntegers key cell).hasKey key' = true ↔ key = key' := by
  simp only [hasKey, List.all_eq_true, get_key_ofIntegers, Cell.isWorth, beq_iff_eq]
  constructor
  · intro h; exact Setting.ext_get fun p => h p (by cases p <;> simp [Parameter.all])
  · rintro rfl p -; rfl

@[simp] theorem ofIntegers_inj : ofIntegers key cell = ofIntegers key' cell' ↔ key = key' ∧ cell = cell' := by
  refine ⟨fun h => ⟨?_, congrArg samples h⟩, by rintro ⟨rfl, rfl⟩; rfl⟩
  have hk : (ofIntegers key cell).hasKey key' = true := by rw [h]; exact hasKey_ofIntegers.2 rfl
  exact hasKey_ofIntegers.1 hk

end Row

namespace Schema

/-! ### The standard schema -/

theorem column?_standard (p : Parameter) :
    standard.column? p.columnName = some p.standardColumn := by
  cases p <;> rfl

theorem affinity_standard (p : Parameter) : standard.affinity p.columnName = .numeric := by
  rw [affinity, column?_standard]; rfl

theorem reader_standard (p : Parameter) :
    standard.reader p.columnName = fun row => row.key.get p := by
  have hrow : Row.reader? p.columnName = some fun row => row.key.get p := by cases p <;> rfl
  show (standard.reader? (4 + 1) p.columnName).getD _ = _
  simp only [reader?, column?_standard, Option.map_some, Parameter.standardColumn, plainReader, hrow,
    Option.getD_some]

theorem shape_standard (key : Setting Int) (cell : Cell) :
    standard.shape (.ofIntegers key cell) = .ofIntegers key cell := by
  have hs : standard.affinity samplesName = .none := rfl
  simp only [shape, affinity_standard, hs, Row.get_key_ofIntegers, Row.samples_ofIntegers]
  rfl

theorem fill_of_present {s : Schema} {forced : Option Reaction} {row : Row} {columns : List Column}
    (h : ∀ column ∈ columns, column.required = none ∨ s.reader column.name row ≠ .absent) :
    s.fill forced row columns = .ok (some row) := by
  induction columns with
  | nil => rfl
  | cons column columns ih =>
    have ih := ih fun c hc => h c (List.mem_cons_of_mem _ hc)
    rcases h column List.mem_cons_self with hr | hr
    · simp only [fill, hr, ih]
    · unfold fill
      split
      · exact ih
      · rw [if_pos hr, ih]

theorem fill_standard (key : Setting Int) (cell : Cell) :
    standard.fill none (.ofIntegers key cell) standard.columns = .ok (some (.ofIntegers key cell)) := by
  refine fill_of_present fun column hc => ?_
  rcases List.mem_append.1 hc with hc | hc
  · obtain ⟨p, -, rfl⟩ := List.mem_map.1 hc
    exact .inr (by simp [Parameter.standardColumn, reader_standard])
  · obtain rfl := List.mem_singleton.1 hc
    exact .inl rfl

/-- The only key of the standard schema takes rows for the same if they have the same integers. -/
theorem hasKey_of_hasValues {key : Setting Int} {cell : Cell} {other : Row} {k : UniqueKey}
    (hk : k ∈ standard.keys)
    (h : hasValues (standard.values k (.ofIntegers key cell)) other = true) :
    other.hasKey key = true := by
  obtain rfl : k = { columns := Parameter.all.map fun p => (p.columnName, .binary) } :=
    List.mem_singleton.1 hk
  simp only [hasValues, values, List.map_map, List.all_map, List.all_eq_true, Function.comp_apply,
    reader_standard, Row.get_key_ofIntegers] at h
  exact List.all_eq_true.2 fun p hp => Cell.isWorth_of_same (h p hp)

theorem clear_of_free {s : Schema} {forced : Option Reaction} {row : Row} {keys : List UniqueKey}
    {others : Neighbours} (h : ∀ k ∈ keys, others.any (hasValues (s.values k row)) = false) :
    s.clear forced row keys others = .ok (some others) := by
  induction keys with
  | nil => rfl
  | cons k keys ih =>
    rw [clear]
    simp only [h k List.mem_cons_self, Bool.false_eq_true, ↓reduceIte]
    exact ih fun k hk => h k (List.mem_cons_of_mem _ hk)

/-- A row of integers is written as it is where no other row has its key. -/
theorem settle_standard {isNew : Bool} {others : Neighbours} {key : Setting Int} {cell : Cell}
    (h : ∀ row ∈ others.before ++ others.behind, row.hasKey key ≠ true) :
    standard.settle none isNew others (.ofIntegers key cell)
      = .ok (some (.ofIntegers key cell, others)) := by
  have hclear : standard.clear none (.ofIntegers key cell) standard.keys others = .ok (some others) := by
    refine clear_of_free fun k hk => ?_
    rw [Neighbours.any, ← List.any_append, List.any_eq_false]
    exact fun row hrow hv => h row hrow (hasKey_of_hasValues hk hv)
  have hnumber : standard.number isNew others (.ofIntegers key cell) = .ok (.ofIntegers key cell) := rfl
  have hinspect : standard.inspect (.ofIntegers key cell) = .ok () := rfl
  rw [settle, show standard.references = [] from rfl]
  simp only [shape_standard, hnumber, fill_standard, hinspect, hclear, bind, Except.bind, pure,
    Except.pure, Option.map_some]

/-! ### Schemas that keep rows -/

/-- No rule of the schema has the row left out that is written, or rows removed beside it. -/
structure KeepsRows (s : Schema) : Prop where
  columns : ∀ column ∈ s.columns, ∀ reaction ∈ column.required, reaction = .refuse
  keys : ∀ key ∈ s.keys, ∀ reaction ∈ key.reaction, reaction = .refuse

theorem keepsRows_standard : standard.KeepsRows where
  columns column hc reaction hr := by
    rcases List.mem_append.1 hc with hc | hc
    · obtain ⟨p, -, rfl⟩ := List.mem_map.1 hc
      exact (Option.some_inj.1 hr).symm
    · obtain rfl := List.mem_singleton.1 hc; cases hr
  keys key hk reaction hr := by obtain rfl := List.mem_singleton.1 hk; cases hr

namespace KeepsRows
variable {s : Schema}

theorem fill_ne_none (h : s.KeepsRows) {columns : List Column} (hc : ∀ c ∈ columns, c ∈ s.columns)
    (row : Row) : s.fill none row columns ≠ .ok none := by
  induction columns with
  | nil => simp [fill]
  | cons column columns ih =>
    have ih := ih fun c hm => hc c (List.mem_cons_of_mem _ hm)
    have hr := h.columns column (hc column List.mem_cons_self)
    unfold fill
    split
    · exact ih
    · next reaction heq =>
      obtain rfl := hr reaction heq
      split
      · exact ih
      · simp

theorem clear_eq (h : s.KeepsRows) {keys : List UniqueKey} (hk : ∀ k ∈ keys, k ∈ s.keys) (row : Row)
    {others : Neighbours} {kept : Option Neighbours} (hc : s.clear none row keys others = .ok kept) :
    kept = some others := by
  induction keys with
  | nil => exact (Except.ok.inj hc).symm
  | cons key keys ih =>
    have hr : (none.or key.reaction).getD .refuse = Reaction.refuse := by
      cases heq : key.reaction with
      | none => rfl
      | some reaction => exact h.keys key (hk key List.mem_cons_self) reaction heq
    simp only [clear, hr] at hc
    split at hc
    · cases hc
    · exact ih (fun k hm => hk k (List.mem_cons_of_mem _ hm)) hc

/-- A row that is written stays beside all the others. -/
theorem settle_eq (h : s.KeepsRows) {isNew : Bool} {others : Neighbours} {row : Row}
    {settled : Option (Row × Neighbours)} (hs : s.settle none isNew others row = .ok settled) :
    ∃ row', settled = some (row', others) := by
  unfold settle at hs
  split at hs
  · cases hs
  · simp only [bind, Except.bind] at hs
    split at hs
    · cases hs
    split at hs
    · cases hs
    next row₁ _ _ filled hf =>
    cases filled with
    | none => exact absurd hf (h.fill_ne_none (fun _ hc => hc) _)
    | some row₂ =>
      dsimp only at hs
      split at hs
      · cases hs
      split at hs
      · cases hs
      next kept hc =>
      obtain rfl := h.clear_eq (fun _ hk => hk) _ hc
      exact ⟨row₂, (Except.ok.inj hs).symm⟩

end KeepsRows
end Schema
end Campaign
