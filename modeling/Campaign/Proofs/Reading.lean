import Mathlib
import Campaign.Proofs.Blob
import Campaign.Proofs.Except
import Campaign.Proofs.Table

/-!
# Reading rows back

What samples a cell holds is said here without the reader of rows: an empty cell holds none, bytes hold
what the codec makes of them, and nothing else holds any (`Cell.Holds`). A row of integers is read as a
record if the integers are those of its key and the cell holds its samples (`readRow_eq_ok`). A statement with
placeholders selects the rows that have the values of its conditions (`query_eq`), and the conditions of a filter
reach a row of integers if these are wanted (`satisfies_ofIntegers`). So the row of a record is read
back as that record by a codec that is faithful (`readRows_row`), and what a filter takes among rows is what
it takes among their keys (`satisfies_row`). A table is `OfTrials` when each of its rows has the key of a
trial, and no other row that key; it is keyed then. The values of a parameter come out ascending, each of them
once (`fieldValues_of_keys`).
-/

namespace Campaign

theorem Setting.mapM?_eq_ok {α β ε : Type} {f : Parameter → α → Except ε β} {s : Setting α}
    {t : Setting β} : s.mapM? f = .ok t ↔ ∀ p, f p (s.get p) = .ok (t.get p) := by
  constructor
  · intro h
    unfold mapM? at h
    obtain ⟨interval, hi, h⟩ := bind_eq_ok.1 h
    obtain ⟨ratio, hr, h⟩ := bind_eq_ok.1 h
    obtain ⟨unit, hu, h⟩ := bind_eq_ok.1 h
    obtain ⟨size, hs, h⟩ := bind_eq_ok.1 h
    obtain rfl := Except.ok.inj h
    intro p
    cases p
    exacts [hi, hr, hu, hs]
  · intro h
    have hi : f .interval s.interval = .ok t.interval := h .interval
    have hr : f .ratio s.ratio = .ok t.ratio := h .ratio
    have hu : f .unit s.unit = .ok t.unit := h .unit
    have hs : f .size s.size = .ok t.size := h .size
    simp only [mapM?, hi, hr, hu, hs]
    rfl

namespace Key

@[simp] theorem get_integers (k : Key) (p : Parameter) : k.integers.get p = ((k.get p).toNat : Int) := by
  simp [integers, Setting.map]

@[simp] theorem integers_inj {k k' : Key} : k.integers = k'.integers ↔ k = k' := by
  refine ⟨fun h => Setting.ext_get fun p => UInt32.toNat_inj.1 ?_, congrArg integers⟩
  have hp := congrArg (·.get p) h
  simp only [get_integers] at hp
  exact_mod_cast hp

theorem injective_cells : Function.Injective fun k : Key => k.integers.map Cell.integer := fun _ _ h =>
  integers_inj.1 (Row.ofIntegers_inj.1 (congrArg (Row.mk · .absent) h)).1

theorem exists_integers_iff {key : Setting Int} :
    (∃ k : Key, k.integers = key) ↔ ∀ p, 0 ≤ key.get p ∧ key.get p ≤ greatestField := by
  constructor
  · rintro ⟨k, rfl⟩ p
    have := (k.get p).toNat_lt
    rw [get_integers, greatestField]; omega
  · intro h
    refine ⟨.ofFn fun p => UInt32.ofNat (key.get p).toNat, Setting.ext_get fun p => ?_⟩
    have hp := h p
    rw [greatestField] at hp
    rw [get_integers, Setting.get_ofFn, UInt32.toNat_ofNat_of_lt' (by rw [UInt32.size]; omega)]
    omega

end Key

theorem Parameter.mem_all (p : Parameter) : p ∈ all := by
  cases p <;> simp [all]

namespace Filter

/-- Whether the integers of a row are those that a filter wants. -/
def Reaches (f : Filter) (key : Setting Int) : Prop :=
  ∀ p v, f.get p = some v → key.get p = v.toNat

theorem reaches_integers {f : Filter} {k : Key} : f.Reaches k.integers ↔ f.takes k = true := by
  rw [takes, List.all_eq_true]
  constructor
  · intro h p _
    cases hv : f.get p with
    | none => rfl
    | some v =>
      have hn := h p v hv
      rw [Key.get_integers] at hn
      exact beq_iff_eq.2 (UInt32.toNat_inj.1 (by exact_mod_cast hn.symm))
  · intro h p v hv
    have htake := h p p.mem_all
    rw [hv] at htake
    rw [(beq_iff_eq.1 htake : v = k.get p), Key.get_integers]

theorem takes_exact {k k' : Key} : (exact k).takes k' = true ↔ k = k' := by
  have hget : ∀ p, (exact k).get p = some (k.get p) := fun p => by simp [exact, Setting.map]
  simp only [takes, hget, List.all_eq_true, Option.all_some, beq_iff_eq]
  constructor
  · intro h; exact Setting.ext_get fun p => h p p.mem_all
  · rintro rfl p -; rfl

end Filter

/-- What samples a cell stands for under a codec. -/
inductive Cell.Holds (c : Codec) : Cell → Option Matrix → Prop
  | absent : Holds c .absent none
  | blob {bytes : List UInt8} {m : Matrix} (h : c.decode bytes = .ok m) : Holds c (.blob bytes) (some m)

namespace Record
variable {c : Codec} {r : Record}

/-- The row of a record. -/
def row (c : Codec) (r : Record) : Row :=
  .ofIntegers r.key.integers (c.cell r.samples)

end Record

namespace Codec
variable {c : Codec} {samples : Option Matrix}

theorem stored_cell (column : Nat) : (c.cell samples).stored column = .ok (samples.map c.encode) := by
  cases samples <;> rfl

theorem cell_eq_absent : c.cell samples = .absent ↔ samples = none := by
  cases samples <;> simp [cell]

theorem Faithful.samples_encode (hc : c.Faithful) (h : ∀ matrix ∈ samples, matrix.rowCount < 2 ^ 32) :
    c.samples (samples.map c.encode) = .ok samples := by
  cases samples with
  | none => rfl
  | some matrix => simp only [Option.map_some, Codec.samples, hc matrix (h matrix rfl)]; rfl

theorem Faithful.holds_cell (hc : c.Faithful) (h : ∀ matrix ∈ samples, matrix.rowCount < 2 ^ 32) :
    (c.cell samples).Holds c samples := by
  cases samples with
  | none => exact .absent
  | some matrix => exact .blob (hc matrix (h matrix rfl))

end Codec

namespace Table
variable {c : Codec} {r : Record}

theorem readField_integer (column : Nat) (p : Parameter) (v : UInt32) :
    readField column p (.integer v.toNat) = .ok v := by
  have hv : (v.toNat : Int) ≤ Key.greatestField := by
    have := v.toNat_lt; rw [Key.greatestField]; omega
  simp [readField, hv]

theorem readField_eq_ok {column : Nat} {p : Parameter} {cell : Cell} {v : UInt32} :
    readField column p cell = .ok v ↔ cell = .integer v.toNat := by
  refine ⟨fun h => ?_, fun h => h ▸ readField_integer column p v⟩
  cases cell with
  | integer n =>
    rw [readField] at h
    split_ifs at h with hn
    obtain rfl := Except.ok.inj h
    rw [Key.greatestField] at hn
    rw [UInt32.toNat_ofNat_of_lt' (by rw [UInt32.size]; omega), Int.toNat_of_nonneg hn.1]
  | absent | real v | text s | blob bytes => cases h

theorem readKey_ofIntegers {key : Setting Int} {k : Key} :
    readKey (key.map .integer) = .ok k ↔ k.integers = key := by
  have hget : ∀ p, (key.map Cell.integer).get p = .integer (key.get p) := fun p => by simp [Setting.map]
  rw [readKey, Setting.mapM?_eq_ok]
  constructor
  · intro h
    refine Setting.ext_get fun p => ?_
    have hp := readField_eq_ok.1 (h p)
    rw [hget] at hp
    rw [Key.get_integers, Cell.integer.inj hp]
  · rintro rfl p
    rw [hget, readField_eq_ok, Key.get_integers]

theorem samples_eq_ok (column : Nat) {cell : Cell} {samples : Option Matrix} :
    (∃ bytes, cell.stored column = .ok bytes ∧ c.samples bytes = .ok samples) ↔ cell.Holds c samples := by
  constructor
  · rintro ⟨bytes, hb, hs⟩
    cases cell with
    | absent =>
      obtain rfl := Except.ok.inj hb
      obtain rfl := Except.ok.inj hs
      exact .absent
    | blob stored =>
      obtain rfl := Except.ok.inj hb
      obtain ⟨m, hm, rfl⟩ := map_eq_ok.1 hs
      exact .blob hm
    | integer n | real v | text s => cases hb
  · rintro (_ | hm)
    · exact ⟨none, rfl, rfl⟩
    · exact ⟨_, rfl, map_eq_ok.2 ⟨_, hm, rfl⟩⟩

/-- A row is read as a record if it has the integers of its key and a cell that holds its samples. -/
theorem readRow_eq_ok {key : Setting Int} {cell : Cell} :
    readRow c (.ofIntegers key cell) = .ok r ↔ r.key.integers = key ∧ cell.Holds c r.samples := by
  rw [← samples_eq_ok 4, readRow, show (Row.ofIntegers key cell).key = key.map .integer from rfl,
    Row.samples_ofIntegers]
  constructor
  · intro h
    split at h
    · cases h
    next k hk =>
    split at h
    · cases h
    next bytes hb =>
    split at h
    · cases h
    next samples hs =>
    obtain rfl := Except.ok.inj h
    exact ⟨readKey_ofIntegers.1 hk, bytes, hb, hs⟩
  · rintro ⟨hk, bytes, hb, hs⟩
    rw [readKey_ofIntegers.2 hk]
    simp only [hb, hs]

theorem readRow_row (hc : c.Faithful) (h : ∀ matrix ∈ r.samples, matrix.rowCount < 2 ^ 32) :
    readRow c (r.row c) = .ok r :=
  readRow_eq_ok.2 ⟨rfl, hc.holds_cell h⟩

theorem readRows_row (hc : c.Faithful) {rs : List Record}
    (h : ∀ r ∈ rs, ∀ matrix ∈ r.samples, matrix.rowCount < 2 ^ 32) :
    readRows c (rs.map (Record.row c)) = .ok rs := by
  rw [readRows, List.mapM_map]
  have := mapM_eq_ok (f := readRow c ∘ Record.row c) (g := id) fun r hr => readRow_row hc (h r hr)
  rwa [List.map_id] at this

/-! ### Statements -/

section
variable {conditions : List (Parameter × UInt32)} {row : Row} {f : Filter} {t : Table}

/-- Whether a row has the values that some conditions ask for. -/
def satisfies (conditions : List (Parameter × UInt32)) (row : Row) : Bool :=
  conditions.all fun (p, v) => (row.key.get p).isWorth v.toNat

/-- Each placeholder finds the value of its own condition. -/
theorem all_holds_terms :
    (terms conditions).all (Term.holds (conditions.map Prod.snd) row) = satisfies conditions row := by
  rw [Bool.eq_iff_iff, satisfies, terms, List.all_eq_true, List.all_eq_true, List.forall_mem_iff_getElem,
    List.forall_mem_iff_getElem]
  simp only [List.length_mapIdx, List.getElem_mapIdx]
  refine forall₂_congr fun i hi => ?_
  simp [Term.holds, hi]

theorem query_eq : t.query c f = readRows c (t.rows.filter (satisfies f.conditions)) := by
  simp only [query, select, all_holds_terms]

theorem failedRecords_eq : t.failedRecords c = readRows c (t.rows.filter fun row => row.samples == .absent) := by
  simp only [failedRecords, select, List.all_cons, List.all_nil, Bool.and_true]
  rfl

end

/-- Conditions reach the rows whose integers the filter wants. -/
theorem satisfies_ofIntegers {f : Filter} {key : Setting Int} {cell : Cell} :
    satisfies f.conditions (.ofIntegers key cell) = true ↔ f.Reaches key := by
  simp only [satisfies, List.all_eq_true, Filter.conditions, List.mem_filterMap, Option.map_eq_some_iff,
    Row.get_key_ofIntegers, Cell.isWorth, beq_iff_eq]
  constructor
  · intro h p v hv
    exact h (p, v) ⟨p, p.mem_all, v, hv, rfl⟩
  · rintro h _ ⟨p, -, v, hv, rfl⟩
    exact h p v hv

/-- The rows that a query reaches are those of the keys that its filter takes. -/
theorem satisfies_row (f : Filter) : satisfies f.conditions (r.row c) = f.takes r.key := by
  rw [Bool.eq_iff_iff, Record.row, satisfies_ofIntegers, Filter.reaches_integers]

/-! ### Tables of trials -/

section
variable {t : Table} {rs : List Record}

/-- The rows have the keys of trials, each its own. -/
structure OfTrials (t : Table) : Prop where
  schema : t.schema = .standard
  keys : ∀ row ∈ t.rows, ∃ k : Key, row.key = k.integers.map .integer
  nodup : (t.rows.map Row.key).Nodup

theorem OfTrials.hasKey_iff (h : t.OfTrials) {row : Row} {k : Key} (hm : row ∈ t.rows) :
    row.hasKey k.integers = true ↔ row.key = k.integers.map .integer := by
  obtain ⟨k', hk'⟩ := h.keys row hm
  rw [Row.eq_ofIntegers hk', Row.hasKey_ofIntegers, Key.integers_inj]
  constructor
  · rintro rfl; rfl
  · intro hk
    exact Key.injective_cells hk

theorem OfTrials.keyed (h : t.OfTrials) : t.Keyed := by
  refine ⟨h.schema, fun row hm k hk => (h.hasKey_iff hm).1 hk, fun k => ?_⟩
  calc t.rows.countP (Row.hasKey k.integers)
      = t.rows.countP (fun row => row.key == k.integers.map .integer) :=
        List.countP_congr fun row hm => by rw [h.hasKey_iff hm, beq_iff_eq]
    _ = (t.rows.map Row.key).count (k.integers.map .integer) := by rw [List.count, List.countP_map]; rfl
    _ ≤ 1 := List.nodup_iff_count_le_one.1 h.nodup _

theorem keys_of_records (hrows : t.rows = rs.map (Record.row c)) :
    t.rows.map Row.key = (rs.map Record.key).map fun k => k.integers.map Cell.integer := by
  rw [hrows, List.map_map, List.map_map]; rfl

/-- Records with distinct keys make a table of trials. -/
theorem ofTrials_of_records (hs : t.schema = .standard) (hrows : t.rows = rs.map (Record.row c))
    (hd : (rs.map Record.key).Nodup) : t.OfTrials := by
  refine ⟨hs, fun row hm => ?_, ?_⟩
  · rw [hrows] at hm
    obtain ⟨r, -, rfl⟩ := List.mem_map.1 hm
    exact ⟨r.key, rfl⟩
  · rw [keys_of_records hrows]
    exact hd.map Key.injective_cells

end

/-! ### Values of parameters -/

theorem mem_insertAscending {n m : Int} {ms : List Int} : n ∈ insertAscending m ms ↔ n = m ∨ n ∈ ms := by
  induction ms with
  | nil => simp [insertAscending]
  | cons k ms ih =>
    unfold insertAscending
    split_ifs with h₁ h₂
    · simp
    · subst h₂; simp
    · simp [ih, or_left_comm]

theorem pairwise_insertAscending {n : Int} {ms : List Int} (h : ms.Pairwise (· < ·)) :
    (insertAscending n ms).Pairwise (· < ·) := by
  induction ms with
  | nil => exact List.pairwise_singleton _ _
  | cons m ms ih =>
    obtain ⟨hm, hms⟩ := List.pairwise_cons.1 h
    unfold insertAscending
    split_ifs with h₁ h₂
    · refine List.pairwise_cons.2 ⟨fun k hk => ?_, h⟩
      rcases List.mem_cons.1 hk with rfl | hk
      · exact h₁
      · exact h₁.trans (hm k hk)
    · exact h
    · refine List.pairwise_cons.2 ⟨fun k hk => ?_, ih hms⟩
      rcases mem_insertAscending.1 hk with rfl | hk
      · omega
      · exact hm k hk

theorem mem_foldr_insertAscending {n : Int} {ns : List Int} : n ∈ ns.foldr insertAscending [] ↔ n ∈ ns := by
  induction ns with
  | nil => simp
  | cons m ns ih => rw [List.foldr_cons, mem_insertAscending, ih, List.mem_cons]

theorem pairwise_foldr_insertAscending (ns : List Int) :
    (ns.foldr insertAscending []).Pairwise (· < ·) := by
  induction ns with
  | nil => exact .nil
  | cons n ns ih => exact pairwise_insertAscending ih

/-- The values of a parameter in rows with the keys of trials, each once and in ascending order. -/
theorem fieldValues_of_keys {t : Table} {ks : List Key}
    (ht : t.rows.map Row.key = ks.map fun k => k.integers.map Cell.integer) (p : Parameter) :
    t.fieldValues p = .ok ((ks.map (·.get p)).toFinset.sort (· ≤ ·)) := by
  set ns : List Int := ks.map fun k => ((k.get p).toNat : Int)
  have hcells : (t.rows.map fun row => row.key.get p) = ks.map fun k => .integer (k.get p).toNat := by
    have hget := congrArg (List.map fun key : Setting Cell => key.get p) ht
    simpa [Setting.map, Function.comp_def] using hget
  have hread : readIntegers p (t.rows.map fun row => row.key.get p) = .ok ns := by
    rw [hcells, readIntegers, List.mapM_map]
    exact mapM_eq_ok fun k _ => rfl
  set values := ns.foldr insertAscending []
  have hvalue : ∀ n ∈ values, ∃ v : UInt32, n = v.toNat := by
    intro n hn
    obtain ⟨k, -, rfl⟩ := List.mem_map.1 (mem_foldr_insertAscending.1 hn)
    exact ⟨_, rfl⟩
  have hfields : (values.mapM fun n => readField 0 p (.integer n))
      = .ok (values.map fun n => UInt32.ofNat n.toNat) := by
    refine mapM_eq_ok fun n hn => ?_
    obtain ⟨v, rfl⟩ := hvalue n hn
    rw [readField_integer]; simp
  rw [fieldValues, hread]
  simp only [bind, Except.bind]
  rw [hfields]
  congr 1
  have hlt : (values.map fun n => UInt32.ofNat n.toNat).Pairwise (· < ·) := by
    rw [List.pairwise_map]
    refine (pairwise_foldr_insertAscending ns).imp_of_mem fun {a b} ha hb hab => ?_
    obtain ⟨v, rfl⟩ := hvalue a ha
    obtain ⟨w, rfl⟩ := hvalue b hb
    simpa [UInt32.lt_iff_toNat_lt] using hab
  refine List.Perm.eq_of_pairwise' (r := (· ≤ ·)) (hlt.imp UInt32.le_of_lt) (Finset.pairwise_sort _ _) ?_
  refine (List.perm_ext_iff_of_nodup (hlt.imp UInt32.ne_of_lt) (Finset.sort_nodup _ _)).2 fun v => ?_
  simp only [List.mem_map, values, mem_foldr_insertAscending, ns, Finset.mem_sort, List.mem_toFinset]
  constructor
  · rintro ⟨_, ⟨k, hk, rfl⟩, rfl⟩; exact ⟨k, hk, by simp⟩
  · rintro ⟨k, hk, rfl⟩; exact ⟨_, ⟨k, hk, rfl⟩, by simp⟩

theorem fieldValues_row {t : Table} {rs : List Record} (ht : t.rows = rs.map (Record.row c)) (p : Parameter) :
    t.fieldValues p = .ok ((rs.map fun r => r.key.get p).toFinset.sort (· ≤ ·)) := by
  rw [fieldValues_of_keys (keys_of_records ht), List.map_map]; rfl

theorem catalogue_of_fieldValues {t : Table} {values : Parameter → List UInt32}
    (h : ∀ p, t.fieldValues p = .ok (values p)) : t.catalogue = .ok (.ofFn values) := by
  have hall : ((Setting.ofFn id).mapM? fun p _ => t.fieldValues p) = .ok (.ofFn values) :=
    Setting.mapM?_eq_ok.2 fun p => by rw [h, Setting.get_ofFn]
  rw [catalogue, hall]; rfl

end Table
end Campaign
