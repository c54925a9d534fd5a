import Mathlib
import Campaign.Proofs.Canonical

/-!
# Equal matrices and equal blobs

Matrices are compared value by value, bit for bit. They are equal exactly if their blobs are, also where a
header cannot hold the number of rows: how many rows there are can be told from the length of a blob, and what
they are from its body (`beq_spec`). Values that are compared as numbers are not equal to themselves if they
are none.
-/

namespace Campaign

/-- Whether two values are equal as numbers. The two zeros are; a NaN is equal to nothing. -/
def Value.equals (v w : Value) : Bool :=
  !v.isNaN && !w.isNaN && v.rank == w.rank

theorem Value.equals_self (v : Value) : v.equals v = true ↔ v.isNaN = false := by
  simp [equals]

namespace Blob

/-- Rows can be told from the bytes of a body. -/
theorem body_inj {rows rows' : List Sample} :
    rows.flatMap sampleBytes = rows'.flatMap sampleBytes ↔ rows = rows' := by
  refine ⟨fun h => ?_, fun h => h ▸ rfl⟩
  have hlength : rows.length = rows'.length := by
    refine Nat.eq_of_mul_eq_mul_right (show 0 < rowLength by decide) ?_
    rw [← length_body, ← length_body, h]
  calc rows
      = rowsOfBody rows.length (rows.flatMap sampleBytes) := (rowsOfBody_flatMap rows).symm
    _ = rowsOfBody rows'.length (rows'.flatMap sampleBytes) := by rw [hlength, h]
    _ = rows' := rowsOfBody_flatMap rows'

theorem encode_injective : Function.Injective encode := fun m n h => by
  have hlength : (header m.rowCount).length = (header n.rowCount).length := by
    rw [length_header, length_header]
  have hrows : m.rows = n.rows := body_inj.1 (List.append_inj h hlength).2
  cases m
  cases n
  rw [Matrix.mk.injEq]
  exact hrows

end Blob

namespace Matrix

/-- Matrices compare as equal exactly if their blobs are the same, however many rows they have and whatever
the bits of their values are, so no two matrices share a blob. This comparison is an equivalence, and that of
values as numbers is not. -/
theorem beq_spec :
    (∀ m n : Matrix, (m == n) = true ↔ Codec.blob.encode m = Codec.blob.encode n) ∧
    (Equivalence fun m n : Matrix => (m == n) = true) ∧
    (¬Equivalence fun v w : Value => v.equals w = true) ∧
    ∀ m n : Matrix, m ≠ n → Codec.blob.encode m ≠ Codec.blob.encode n := by
  refine ⟨fun m n => beq_iff.trans Blob.encode_injective.eq_iff.symm, ?_, fun h => ?_, fun m n hne => ?_⟩
  · simp only [beq_iff]
    exact eq_equivalence
  · exact absurd ((Value.equals_self .nan).1 (h.refl .nan)) (by decide)
  · exact Blob.encode_injective.ne hne

end Matrix
end Campaign
