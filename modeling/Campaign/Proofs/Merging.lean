import Mathlib
import Campaign.Proofs.Canonical
import Campaign.Proofs.Matrix

/-!
# Merges in any bracketing

However the merges of a sequence of samples are bracketed, the rows of all of them come out one behind the
other, in the order of the sequence, and so do the bodies of their blobs (`Bracketing.result_spec`).
-/

namespace Campaign

/-- What follows the header in the blob of a matrix. -/
def Blob.body (m : Matrix) : List UInt8 :=
  (encode m).drop headerLength

namespace Matrix

/-- A way to bracket the merges of a sequence of samples. -/
inductive Bracketing : List (Option Matrix) → Type
  | empty : Bracketing []
  | single (samples : Option Matrix) : Bracketing [samples]
  | merge {first second : List (Option Matrix)} :
      Bracketing first → Bracketing second → Bracketing (first ++ second)

variable {all : List (Option Matrix)}

theorem joined_append (first second : List (Option Matrix)) :
    joined (first ++ second) = merge (joined first) (joined second) := by
  rw [joined, List.flatMap_append, ofRows?_append]
  rfl

theorem foldl_merge (all : List (Option Matrix)) (start : Option Matrix) :
    all.foldl merge start = joined (start :: all) := by
  induction all generalizing start with
  | nil => exact (joined_singleton start).symm
  | cons samples all ih => rw [List.foldl_cons, ih, joined_merge_cons]

theorem flatMap_rowsOf (all : List (Option Matrix)) :
    all.flatMap rowsOf = all.reduceOption.flatMap rows := by
  induction all with
  | nil => rfl
  | cons samples all ih =>
    cases samples with
    | none => exact ih
    | some m => rw [List.reduceOption_cons_of_some, List.flatMap_cons, List.flatMap_cons, ih]; rfl

theorem rowsOf_eq_nil {samples : Option Matrix} : rowsOf samples = [] ↔ samples = none := by
  cases samples with
  | none => exact iff_of_true rfl rfl
  | some m => exact iff_of_false m.rows_ne_nil nofun

theorem joined_eq_none : joined all = none ↔ ∀ samples ∈ all, samples = none := by
  rw [joined, ofRows?_eq_iff]
  show all.flatMap rowsOf = [] ↔ _
  simp only [List.flatMap_eq_nil_iff, rowsOf_eq_nil]

theorem rows_of_joined {m : Matrix} (h : joined all = some m) : m.rows = all.reduceOption.flatMap rows := by
  rw [← flatMap_rowsOf]
  exact (ofRows?_eq_iff.1 h).symm

end Matrix

namespace Blob

theorem body_eq (m : Matrix) : body m = m.rows.flatMap sampleBytes :=
  List.drop_left' (length_header _)

/-- The blob of a matrix that is put together from others is put together from theirs. -/
theorem encode_of_rows {m : Matrix} {parts : List Matrix} (h : m.rows = parts.flatMap Matrix.rows) :
    encode m = header ((parts.map Matrix.rowCount).sum % 2 ^ 32) ++ parts.flatMap body := by
  have hcount : m.rowCount = (parts.map Matrix.rowCount).sum := by
    rw [Matrix.rowCount, h, List.length_flatMap]
    rfl
  have hbody : m.rows.flatMap sampleBytes = parts.flatMap body := by
    rw [h, List.flatMap_assoc, funext body_eq]
  rw [encode, hcount, hbody, header_mod]

end Blob

namespace Matrix.Bracketing
variable {all : List (Option Matrix)}

/-- What the merges give, from the innermost brackets outwards. -/
def result {all : List (Option Matrix)} : Bracketing all → Option Matrix
  | empty => none
  | single samples => samples
  | merge b c => Matrix.merge b.result c.result

theorem result_eq_joined (b : Bracketing all) : b.result = joined all := by
  induction b with
  | empty => rfl
  | single samples => exact (joined_singleton samples).symm
  | merge b c hb hc => rw [result, hb, hc, joined_append]

/-- All ways to bracket the merges of a sequence give the same as merging from left to right: nothing exactly
if all of its samples are absent, and otherwise the rows of those that are present, in the order of the
sequence. The blob of that has the sum of their row counts in its header, of which four bytes are kept, and
then the bodies of their blobs. -/
theorem result_spec (b : Bracketing all) :
    b.result = all.foldl Matrix.merge none ∧
    (b.result = none ↔ ∀ samples ∈ all, samples = none) ∧
    ∀ m, b.result = some m →
      m.rows = all.reduceOption.flatMap rows ∧
      Codec.blob.encode m = Blob.header ((all.reduceOption.map rowCount).sum % 2 ^ 32) ++
        all.reduceOption.flatMap Blob.body := by
  rw [result_eq_joined]
  refine ⟨(foldl_merge all none).symm, joined_eq_none, fun m h => ?_⟩
  have hrows := rows_of_joined h
  exact ⟨hrows, Blob.encode_of_rows hrows⟩

end Matrix.Bracketing
end Campaign
