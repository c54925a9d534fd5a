import Mathlib
import Campaign.Store.Insert

/-!
# Archives

What a store is to those who use it: a finite map from keys to samples, and answers to requests. An
archive knows no bytes, no rows and no order of the trials, and it cannot fail.
-/

namespace Campaign

/-- The samples of each trial; a trial without samples is there too. -/
abbrev Archive := Finmap fun _ : Key => Option Matrix

/-- Something asked of a store. -/
inductive Request where
  | insert (policy : Policy) (r : Record)
  | insertMany (policy : Policy) (rs : List Record)
  | get (k : Key)
  | query (f : Filter)
  | catalogue
  | failedRecords
  | count
  /-- Close the store and open it again. -/
  | reopen

/-- An answer to a request. Several records are in no order. -/
inductive Answer where
  | outcome (outcome : Outcome)
  | tally (tally : Tally)
  | record (r : Option Record)
  | records (rs : Multiset Record)
  | catalogue (c : Catalogue)
  | count (n : Nat)
  | reopened

namespace Record

/-- The record with other samples, if it has a key. -/
def overwrite (k : Key) (samples : Option Matrix) (r : Record) : Record :=
  if r.key = k then { r with samples } else r

@[simp] theorem key_overwrite {k : Key} {samples : Option Matrix} {r : Record} :
    (r.overwrite k samples).key = r.key := by
  unfold overwrite; split_ifs <;> rfl

end Record

namespace Archive

/-- Writes one record. -/
def write (m : Archive) (policy : Policy) (r : Record) : Outcome × Archive :=
  match m.lookup r.key, policy with
  | none, _ => (.inserted, m.insert r.key r.samples)
  | some _, .ignore => (.ignored, m)
  | some _, .replace => (.replaced, m.insert r.key r.samples)
  | some old, .merge => (.merged, m.insert r.key (Matrix.merge old r.samples))

/-- Writes records one after another. -/
def writeAll (policy : Policy) : Archive → List Record → List Outcome × Archive
  | m, [] => ([], m)
  | m, r :: rs =>
    let (outcome, m) := m.write policy r
    let (outcomes, m) := writeAll policy m rs
    (outcome :: outcomes, m)

/-- The trials as records. -/
def records (m : Archive) : Multiset Record :=
  m.entries.map fun entry => ⟨entry.1, entry.2⟩

/-- The values that trials have for a parameter, ascending. -/
def fieldValues (m : Archive) (p : Parameter) : List UInt32 :=
  (m.keys.image (·.get p)).sort (· ≤ ·)

/-- The answer to a request, and the archive after it. -/
def answer (m : Archive) : Request → Answer × Archive
  | .insert policy r => (.outcome (m.write policy r).1, (m.write policy r).2)
  | .insertMany policy rs => (.tally (.ofOutcomes (m.writeAll policy rs).1), (m.writeAll policy rs).2)
  | .get k => (.record ((m.lookup k).map fun samples => ⟨k, samples⟩), m)
  | .query f => (.records (m.records.filter fun r => f.takes r.key), m)
  | .catalogue => (.catalogue (.ofFn m.fieldValues), m)
  | .failedRecords => (.records (m.records.filter fun r => r.samples = none), m)
  | .count => (.count m.keys.card, m)
  | .reopen => (.reopened, m)

/-- The answers to requests that come one after another. -/
def answers : Archive → List Request → List Answer
  | _, [] => []
  | m, q :: qs => (m.answer q).1 :: answers (m.answer q).2 qs

/-- The archives that requests pass through, from the first to the last. -/
def trace : Archive → List Request → List Archive
  | m, [] => [m]
  | m, q :: qs => m :: trace (m.answer q).2 qs

/-- No trial has more rows than four bytes can count. -/
def IsSmall (m : Archive) : Prop :=
  ∀ k matrix, m.lookup k = some (some matrix) → matrix.rowCount < 2 ^ 32

variable {m : Archive} {r : Record} {rs : List Record}

theorem mem_trace_self {qs : List Request} : m ∈ m.trace qs := by
  cases qs <;> simp [trace]

/-! ### Records -/

theorem mem_records : r ∈ m.records ↔ m.lookup r.key = some r.samples := by
  rw [Finmap.lookup_eq_some_iff, records, Multiset.mem_map]
  constructor
  · rintro ⟨entry, he, rfl⟩; exact he
  · exact fun h => ⟨_, h, rfl⟩

theorem nodup_keys : (m.records.map Record.key).Nodup := by
  rw [records, Multiset.map_map]
  exact Multiset.nodup_keys.2 m.nodupKeys

theorem nodup_records : m.records.Nodup := nodup_keys.of_map

theorem card_records : m.records.card = m.keys.card := by
  rw [records, Multiset.card_map]; exact (Multiset.card_map _ _).symm

theorem mem_keys {k : Key} : k ∈ m.keys ↔ ∃ r ∈ m.records, r.key = k := by
  rw [Finmap.mem_keys, Finmap.mem_iff]
  constructor
  · rintro ⟨samples, h⟩; exact ⟨⟨k, samples⟩, mem_records.2 h, rfl⟩
  · rintro ⟨r, hr, rfl⟩; exact ⟨_, mem_records.1 hr⟩

theorem records_insert_of_new {k : Key} {samples : Option Matrix} (h : m.lookup k = none) :
    records (m.insert k samples) = ⟨k, samples⟩ ::ₘ m.records := by
  rw [records, Finmap.entries_insert_of_notMem (Finmap.lookup_eq_none.1 h), Multiset.map_cons]; rfl

/-- Binding a key anew changes the samples of its record and nothing else. -/
theorem records_insert_of_bound {k : Key} {old samples : Option Matrix} (h : m.lookup k = some old) :
    records (m.insert k samples) = m.records.map (Record.overwrite k samples) := by
  refine (Multiset.Nodup.ext nodup_records ?_).2 fun r => ?_
  · have hkey : Record.key ∘ Record.overwrite k samples = Record.key := funext fun _ => Record.key_overwrite
    exact Multiset.Nodup.of_map Record.key (by rw [Multiset.map_map, hkey]; exact nodup_keys)
  rw [Multiset.mem_map, mem_records]
  constructor
  · intro hr
    by_cases hk : r.key = k
    · subst hk
      rw [Finmap.lookup_insert, Option.some_inj] at hr
      exact ⟨⟨r.key, old⟩, mem_records.2 h, by rw [Record.overwrite, if_pos rfl, hr]⟩
    · rw [Finmap.lookup_insert_of_ne _ hk] at hr
      exact ⟨r, mem_records.2 hr, if_neg hk⟩
  · rintro ⟨r, hr, rfl⟩
    rw [Record.key_overwrite, Record.overwrite]
    split_ifs with hk
    · rw [hk]; exact Finmap.lookup_insert _
    · rw [Finmap.lookup_insert_of_ne _ hk]; exact mem_records.1 hr

/-! ### Sizes -/

theorem isSmall_empty : IsSmall ∅ := fun k matrix h => by simp at h

theorem IsSmall.insert (h : m.IsSmall) {k : Key} {samples : Option Matrix}
    (hs : ∀ matrix ∈ samples, matrix.rowCount < 2 ^ 32) : IsSmall (Finmap.insert k samples m) := by
  intro k' matrix hl
  by_cases hk : k' = k
  · subst hk
    rw [Finmap.lookup_insert, Option.some_inj] at hl
    exact hs matrix hl
  · rw [Finmap.lookup_insert_of_ne _ hk] at hl
    exact h k' matrix hl

/-- Merging takes no rows away. -/
theorem IsSmall.of_write_merge (h : (m.write .merge r).2.IsSmall) : m.IsSmall := by
  intro k matrix hl
  unfold write at h
  by_cases hk : k = r.key
  · subst hk
    rw [hl] at h
    cases hr : r.samples with
    | none => exact h r.key matrix (by simp [hr, Matrix.merge])
    | some new =>
      have := h r.key (matrix ++ new) (by simp [hr, Matrix.merge])
      have hlen : (matrix ++ new).rowCount = matrix.rowCount + new.rowCount := List.length_append
      omega
  · cases hm : m.lookup r.key with
    | none => rw [hm] at h; exact h k matrix (by rw [Finmap.lookup_insert_of_ne _ hk, hl])
    | some old => rw [hm] at h; exact h k matrix (by rw [Finmap.lookup_insert_of_ne _ hk, hl])

theorem IsSmall.of_writeAll_merge (h : (m.writeAll .merge rs).2.IsSmall) : m.IsSmall := by
  induction rs generalizing m with
  | nil => exact h
  | cons r rs ih => exact (ih h).of_write_merge

end Archive
end Campaign
