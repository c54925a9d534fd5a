import Mathlib
import Campaign.Proofs.Archive
import Campaign.Proofs.Batch
import Campaign.Proofs.Reading

/-!
# Stores refine archives

A store `Represents` an archive if its rows are the archive's trials, in any order, each with the bytes
of its samples. Every request keeps to that (`Represents.answer`), so a store that starts out empty
answers whatever it is asked as an archive does (`answers_eq`).
-/

namespace Campaign

theorem Record.row_overwrite {c : Codec} {r : Record} {k : Key} {samples : Option Matrix} :
    (r.overwrite k samples).row c = (r.row c).overwrite k.integers (c.cell samples) := by
  rw [row, row, Row.overwrite_ofIntegers, overwrite]
  simp only [Key.integers_inj]
  split_ifs <;> rfl

namespace Store

/-- The answer to a request, and the store after it. A store is opened again on what its file holds. -/
def answer (s : Store) : Request → Except Fault Answer × Store
  | .insert policy r => ((s.insert policy r).1.map .outcome, (s.insert policy r).2)
  | .insertMany policy rs => ((s.insertMany policy rs).1.map .tally, (s.insertMany policy rs).2)
  | .get k => ((s.get k).map .record, s)
  | .query f => ((s.query f).map fun rs => .records rs, s)
  | .catalogue => (s.catalogue.map .catalogue, s)
  | .failedRecords => (s.failedRecords.map fun rs => .records rs, s)
  | .count => (.ok (.count s.count), s)
  | .reopen =>
    match openOn s.codec (some s.content) with
    | .ok s => (.ok .reopened, s)
    | .error fault => (.error fault, s)

/-- The answers to requests that come one after another. -/
def answers : Store → List Request → List (Except Fault Answer)
  | _, [] => []
  | s, q :: qs => (s.answer q).1 :: answers (s.answer q).2 qs

/-- The rows of the store are the trials of the archive. -/
structure Represents (s : Store) (m : Archive) : Prop where
  isWritable : s.isWritable = true
  schema : s.table.schema = .standard
  rows : ∃ rs : List Record, s.table.rows = rs.map (Record.row s.codec) ∧ ↑rs = m.records

theorem represents_inMemory (c : Codec) : (inMemory c).Represents ∅ :=
  ⟨rfl, rfl, [], rfl, rfl⟩

namespace Represents
variable {s : Store} {m : Archive} {policy : Policy} {r : Record} {rs : List Record} {k : Key}
  {samples : Option Matrix}

theorem ofTrials (h : s.Represents m) : s.table.OfTrials := by
  obtain ⟨rs, hrows, hrs⟩ := h.rows
  refine Table.ofTrials_of_records h.schema hrows ?_
  rw [← Multiset.coe_nodup, ← Multiset.map_coe, hrs]
  exact Archive.nodup_keys

theorem keyed (h : s.Represents m) : s.table.Keyed :=
  h.ofTrials.keyed

theorem mem_rows (h : s.Represents m) : r.row s.codec ∈ s.table.rows ↔ ∃ samples,
    m.lookup r.key = some samples ∧ s.codec.cell samples = s.codec.cell r.samples := by
  obtain ⟨rs, hrows, hrs⟩ := h.rows
  rw [hrows, List.mem_map]
  constructor
  · rintro ⟨r', hr', he⟩
    obtain ⟨hk, hc⟩ := Row.ofIntegers_inj.1 he
    rw [Key.integers_inj] at hk
    rw [← Multiset.mem_coe, hrs, Archive.mem_records, hk] at hr'
    exact ⟨_, hr', hc⟩
  · rintro ⟨samples, hl, hc⟩
    refine ⟨⟨r.key, samples⟩, ?_, by rw [Record.row, Record.row, hc]⟩
    rw [← Multiset.mem_coe, hrs]
    exact Archive.mem_records.2 hl

theorem find?_eq_some (h : s.Represents m) (hl : m.lookup k = some samples) :
    s.table.find? k.integers = some (s.codec.cell samples) :=
  h.keyed.find?_eq_some.2 (h.mem_rows (r := ⟨k, samples⟩).2 ⟨samples, hl, rfl⟩)

theorem find?_eq_none (h : s.Represents m) (hl : m.lookup k = none) : s.table.find? k.integers = none := by
  obtain ⟨rs, hrows, hrs⟩ := h.rows
  rw [Table.find?, Option.map_eq_none_iff, List.find?_eq_none, hrows]
  intro row hrow hk
  obtain ⟨r, hr, rfl⟩ := List.mem_map.1 hrow
  rw [Record.row, Row.hasKey_ofIntegers, Key.integers_inj] at hk
  rw [← Multiset.mem_coe, hrs, Archive.mem_records, hk, hl] at hr
  cases hr

/-! ### Writing -/

theorem extend (h : s.Represents m) (hl : m.lookup k = none) :
    Represents { s with table := s.table.extend k.integers (s.codec.cell samples) } (m.insert k samples) := by
  obtain ⟨rs, hrows, hrs⟩ := h.rows
  refine ⟨h.isWritable, h.schema, rs ++ [⟨k, samples⟩], ?_, ?_⟩
  · simp [Table.extend, hrows, Record.row]
  · rw [Archive.records_insert_of_new hl, ← hrs, ← Multiset.coe_add, Multiset.coe_singleton,
      Multiset.add_comm, Multiset.singleton_add]

theorem overwrite {old : Option Matrix} (h : s.Represents m) (hl : m.lookup k = some old) :
    Represents { s with table := s.table.overwrite k.integers (s.codec.cell samples) }
      (m.insert k samples) := by
  obtain ⟨rs, hrows, hrs⟩ := h.rows
  refine ⟨h.isWritable, h.schema, rs.map (Record.overwrite k samples), ?_, ?_⟩
  · rw [Table.overwrite, hrows, List.map_map, List.map_map]
    exact List.map_congr_left fun r _ => Record.row_overwrite.symm
  · rw [Archive.records_insert_of_bound hl, ← hrs, Multiset.map_coe]

theorem write_eq (h : s.Represents m) {outcome : Outcome} {change : Change} {t : Table}
    (hp : s.plan policy r = .ok (outcome, change)) (ht : s.table.change change = .ok t) :
    s.write policy r = .ok (outcome, { s with table := t }) := by
  have hc : s.change change = .ok { s with table := t } := by
    rw [Store.change, if_neg (by simp [h.isWritable]), ht]
  rw [Store.write, hp]
  simp only [hc]
  rfl

/-- Writing a record binds its key as in an archive; only a merge has to read what is stored. -/
theorem write (h : s.Represents m) (hc : s.codec.Faithful) (policy : Policy) (r : Record)
    (hm : policy = .merge → m.IsSmall) :
    ∃ s', s.write policy r = .ok ((m.write policy r).1, s') ∧ s'.Represents (m.write policy r).2 ∧
      s'.codec = s.codec := by
  cases hl : m.lookup r.key with
  | none =>
    have hw : m.write policy r = (.inserted, m.insert r.key r.samples) := by
      unfold Archive.write; rw [hl]
    have hf := h.find?_eq_none hl
    have hadd : s.table.change (.add (r.row s.codec))
        = .ok (s.table.extend r.key.integers (s.codec.cell r.samples)) := h.keyed.add_eq hf
    rw [hw]
    exact ⟨_, h.write_eq (by rw [plan, hf]; rfl) hadd, h.extend hl, rfl⟩
  | some old =>
    have hplan : s.plan policy r
        = (s.resolve policy r (old.map s.codec.encode)).map fun change => (policy.outcome, change) := by
      rw [plan, h.find?_eq_some hl]
      simp only [Codec.stored_cell]
    have hupdate (samples : Option Matrix) :
        s.table.change (.update r.key.integers (s.codec.cell samples))
          = .ok (s.table.overwrite r.key.integers (s.codec.cell samples)) := h.keyed.update_eq
    cases policy with
    | ignore =>
      have hw : m.write .ignore r = (.ignored, m) := by
        unfold Archive.write; rw [hl]
      rw [hw]
      exact ⟨_, h.write_eq hplan rfl, h, rfl⟩
    | replace =>
      have hw : m.write .replace r = (.replaced, m.insert r.key r.samples) := by
        unfold Archive.write; rw [hl]
      rw [hw]
      exact ⟨_, h.write_eq hplan (hupdate _), h.overwrite hl, rfl⟩
    | merge =>
      have hw : m.write .merge r = (.merged, m.insert r.key (Matrix.merge old r.samples)) := by
        unfold Archive.write; rw [hl]
      have hold : s.codec.samples (old.map s.codec.encode) = .ok old :=
        hc.samples_encode fun matrix hx => hm rfl r.key matrix (by rw [hl, Option.mem_def.1 hx])
      have hresolve : s.resolve .merge r (old.map s.codec.encode)
          = .ok (.update r.key.integers (s.codec.cell (Matrix.merge old r.samples))) := by
        simp only [resolve, hold]
      rw [hresolve] at hplan
      rw [hw]
      exact ⟨_, h.write_eq hplan (hupdate _), h.overwrite hl, rfl⟩

/-- A batch of merges reads what it has written itself, and no trial in its way is larger than at its
end. -/
theorem writeAll (h : s.Represents m) (hc : s.codec.Faithful) (policy : Policy) (rs : List Record)
    (hm : policy = .merge → (m.writeAll policy rs).2.IsSmall) :
    ∃ s', s.writeAll policy rs = .ok ((m.writeAll policy rs).1, s') ∧
      s'.Represents (m.writeAll policy rs).2 ∧ s'.codec = s.codec := by
  induction rs generalizing s m with
  | nil => exact ⟨s, rfl, h, rfl⟩
  | cons r rs ih =>
    have hsmall : policy = .merge → m.IsSmall := by
      rintro rfl; exact (hm rfl).of_writeAll_merge
    obtain ⟨s₁, hw, h₁, hc₁⟩ := h.write hc policy r hsmall
    obtain ⟨s₂, hrest, h₂, hc₂⟩ := ih h₁ (hc₁ ▸ hc) hm
    exact ⟨s₂, writeAll_cons_eq_ok.2 ⟨_, s₁, _, hw, hrest, rfl⟩, h₂, hc₂.trans hc₁⟩

/-! ### Reading -/

theorem readRows_filter (h : s.Represents m) (hc : s.codec.Faithful) (hm : m.IsSmall) {p : Row → Bool}
    {q : Record → Bool} (hpq : ∀ r : Record, p (r.row s.codec) = q r) :
    ∃ rs : List Record, Table.readRows s.codec (s.table.rows.filter p) = .ok rs ∧
      (rs : Multiset Record) = m.records.filter fun r => q r := by
  obtain ⟨rs, hrows, hrs⟩ := h.rows
  have hsmall : ∀ r ∈ rs, ∀ matrix ∈ r.samples, matrix.rowCount < 2 ^ 32 := by
    intro r hr matrix hx
    rw [← Multiset.mem_coe, hrs, Archive.mem_records] at hr
    exact hm r.key matrix (by rw [hr, Option.mem_def.1 hx])
  refine ⟨rs.filter q, ?_, by rw [← hrs, Multiset.filter_coe]; simp⟩
  rw [hrows, List.filter_map, show p ∘ Record.row s.codec = q from funext hpq]
  exact Table.readRows_row hc fun r hr => hsmall r (List.mem_of_mem_filter hr)

theorem query (h : s.Represents m) (hc : s.codec.Faithful) (hm : m.IsSmall) (f : Filter) :
    ∃ rs, s.query f = .ok rs ∧ (rs : Multiset Record) = m.records.filter fun r => f.takes r.key := by
  rw [Store.query, Table.query_eq]
  exact h.readRows_filter hc hm fun _ => Table.satisfies_row f

theorem failedRecords (h : s.Represents m) (hc : s.codec.Faithful) (hm : m.IsSmall) :
    ∃ rs, s.failedRecords = .ok rs ∧ (rs : Multiset Record) = m.records.filter fun r => r.samples = none := by
  obtain ⟨rs, hread, hrs⟩ := h.readRows_filter hc hm (p := fun row => row.samples == .absent)
    (q := fun r => r.samples = none) fun r => by
      rw [Bool.eq_iff_iff, beq_iff_eq, decide_eq_true_eq]; exact Codec.cell_eq_absent
  exact ⟨rs, Table.failedRecords_eq.trans hread, by simpa using hrs⟩

/-- The records with a key are at most one. -/
theorem get (h : s.Represents m) (hc : s.codec.Faithful) (hm : m.IsSmall) (k : Key) :
    s.get k = .ok ((m.lookup k).map fun samples => ⟨k, samples⟩) := by
  obtain ⟨rs, hread, hrs⟩ := h.query hc hm (Filter.exact k)
  have hmem : ∀ r, r ∈ rs ↔ m.lookup k = some r.samples ∧ r.key = k := by
    intro r
    rw [← Multiset.mem_coe, hrs, Multiset.mem_filter, Archive.mem_records, Filter.takes_exact]
    constructor
    · rintro ⟨hl, rfl⟩; exact ⟨hl, rfl⟩
    · rintro ⟨hl, rfl⟩; exact ⟨hl, rfl⟩
  have hget : s.get k = .ok rs.head? := by
    show (s.query (Filter.exact k)).map List.head? = _
    rw [hread]; rfl
  rw [hget]
  congr 1
  cases hl : m.lookup k with
  | none =>
    cases rs with
    | nil => rfl
    | cons r rs => have := (hmem r).1 List.mem_cons_self; rw [hl] at this; cases this.1
  | some samples =>
    cases rs with
    | nil => cases (hmem ⟨k, samples⟩).2 ⟨hl, rfl⟩
    | cons r rs =>
      obtain ⟨hr, rfl⟩ := (hmem r).1 List.mem_cons_self
      rw [hl, Option.some_inj] at hr
      rw [hr]; rfl

theorem catalogue (h : s.Represents m) : s.catalogue = .ok (.ofFn m.fieldValues) := by
  obtain ⟨rs, hrows, hrs⟩ := h.rows
  have hvalues : ∀ p, s.table.fieldValues p = .ok (m.fieldValues p) := by
    intro p
    have himage : (rs.map fun r => r.key.get p).toFinset = m.keys.image (·.get p) := by
      ext v
      simp only [List.mem_toFinset, List.mem_map, Finset.mem_image, Archive.mem_keys, ← hrs, Multiset.mem_coe]
      constructor
      · rintro ⟨r, hr, rfl⟩; exact ⟨_, ⟨r, hr, rfl⟩, rfl⟩
      · rintro ⟨_, ⟨r, hr, rfl⟩, rfl⟩; exact ⟨r, hr, rfl⟩
    rw [Table.fieldValues_row hrows, himage]; rfl
  exact Table.catalogue_of_fieldValues hvalues

theorem count (h : s.Represents m) : s.count = m.keys.card := by
  obtain ⟨rs, hrows, hrs⟩ := h.rows
  rw [Store.count, Table.count, hrows, List.length_map, ← Multiset.coe_card, hrs, Archive.card_records]

/-- What is opened again is what was there. -/
theorem openOn_content (h : s.Represents m) : openOn s.codec (some s.content) = .ok s := by
  have hlayout : s.table.schema.checkLayout = .ok () := by rw [h.schema]; rfl
  rw [openOn, content, Table.open?, hlayout]
  show Except.ok _ = _
  obtain ⟨c, t, w⟩ := s
  obtain rfl : w = true := h.isWritable
  rfl

/-- One request keeps a store on an archive. -/
theorem answer (h : s.Represents m) (hc : s.codec.Faithful) (hm : m.IsSmall) (q : Request)
    (hq : (m.answer q).2.IsSmall) :
    ∃ s', s.answer q = (.ok (m.answer q).1, s') ∧ s'.Represents (m.answer q).2 ∧ s'.codec = s.codec := by
  cases q with
  | insert policy r =>
    obtain ⟨s', hw, h', hc'⟩ := h.write hc policy r fun _ => hm
    refine ⟨s', ?_, h', hc'⟩
    rw [Store.answer, insert_eq_ok.2 hw]; rfl
  | insertMany policy rs =>
    obtain ⟨s', hw, h', hc'⟩ := h.writeAll hc policy rs fun _ => hq
    refine ⟨s', ?_, h', hc'⟩
    have hmany : s.insertMany policy rs = (.ok (.ofOutcomes (m.writeAll policy rs).1), s') := by
      rw [insertMany, hw]; rfl
    rw [Store.answer, hmany]; rfl
  | get k => exact ⟨s, by rw [Store.answer, h.get hc hm]; rfl, h, rfl⟩
  | query f =>
    obtain ⟨rs, hread, hrs⟩ := h.query hc hm f
    exact ⟨s, by rw [Store.answer, hread, Archive.answer, ← hrs]; rfl, h, rfl⟩
  | catalogue => exact ⟨s, by rw [Store.answer, h.catalogue]; rfl, h, rfl⟩
  | failedRecords =>
    obtain ⟨rs, hread, hrs⟩ := h.failedRecords hc hm
    exact ⟨s, by rw [Store.answer, hread, Archive.answer, ← hrs]; rfl, h, rfl⟩
  | count => exact ⟨s, by rw [Store.answer, h.count]; rfl, h, rfl⟩
  | reopen => exact ⟨s, by rw [Store.answer, h.openOn_content]; rfl, h, rfl⟩

theorem answers (h : s.Represents m) (hc : s.codec.Faithful) {qs : List Request}
    (hm : ∀ m' ∈ m.trace qs, m'.IsSmall) : s.answers qs = (m.answers qs).map .ok := by
  induction qs generalizing s m with
  | nil => rfl
  | cons q qs ih =>
    have hrest : ∀ m' ∈ (m.answer q).2.trace qs, m'.IsSmall := fun m' hm' =>
      hm m' (List.mem_cons_of_mem _ hm')
    obtain ⟨s', hs', h', hc'⟩ := h.answer hc (hm m List.mem_cons_self) q (hrest _ Archive.mem_trace_self)
    rw [Store.answers, hs', Archive.answers, List.map_cons]
    exact congrArg _ (ih h' (hc' ▸ hc) hrest)

end Represents

/-- A new store answers all requests as an archive does that is empty at first, and no request fails, as
long as no trial gets more rows than four bytes can count. The codec may be any that reads back what it
has written, such as the one for blobs. -/
theorem answers_eq :
    Codec.blob.Faithful ∧
    ∀ c : Codec, c.Faithful → ∀ qs : List Request, (∀ m ∈ Archive.trace ∅ qs, m.IsSmall) →
      openOn c none = .ok (inMemory c) ∧ (inMemory c).answers qs = (Archive.answers ∅ qs).map .ok :=
  ⟨Codec.faithful_blob, fun c hc _ hm => ⟨rfl, (represents_inMemory c).answers hc hm⟩⟩

/-- Samples merged into a trial are there when the store has been opened again. -/
theorem answers_merge_reopen :
    let one : Matrix := ⟨[.failed], by simp⟩
    let k : Key := ⟨1, 50, 256, 1024⟩
    (inMemory .blob).answers
      [.insert .ignore ⟨k, some one⟩, .insertMany .merge [⟨k, some one⟩, ⟨k, none⟩], .reopen, .get k]
      = [.ok (.outcome .inserted), .ok (.tally ⟨0, 0, 0, 2⟩), .ok .reopened,
          .ok (.record (some ⟨k, some (one ++ one)⟩))] := by
  intro one k
  obtain ⟨hc, h⟩ := answers_eq
  let m₁ : Archive := Finmap.insert k (some one) ∅
  let m₂ : Archive := Finmap.insert k (some (one ++ one)) (Finmap.insert k (some (one ++ one)) m₁)
  have h₁ : m₁.IsSmall := Archive.isSmall_empty.insert (by rintro _ ⟨⟩; decide)
  have h₂ : m₂.IsSmall := (h₁.insert (by rintro _ ⟨⟩; decide)).insert (by rintro _ ⟨⟩; decide)
  have htrace : Archive.trace ∅ [.insert .ignore ⟨k, some one⟩,
      .insertMany .merge [⟨k, some one⟩, ⟨k, none⟩], .reopen, .get k] = [∅, m₁, m₂, m₂, m₂] := rfl
  rw [(h .blob hc _ ?_).2]
  · rfl
  · rw [htrace]
    simp [Archive.isSmall_empty, h₁, h₂]

end Store
end Campaign
