import Mathlib
import Campaign.Sample

/-!
# Matrices and their rows

The matrix of some rows, if there are any, has just these rows, and merging matrices puts their rows one
behind the other. A trial without samples is one without rows.
-/

namespace Campaign.Matrix

/-- The rows of some samples. -/
def rowsOf (samples : Option Matrix) : List Sample :=
  samples.elim [] rows

/-- The matrix of the rows of all, one behind the other. -/
def joined (all : List (Option Matrix)) : Option Matrix :=
  ofRows? (all.flatMap rowsOf)

theorem ofRows?_eq_iff {rows : List Sample} {r : Option Matrix} :
    ofRows? rows = r ↔ rows = r.elim [] Matrix.rows := by
  unfold ofRows?
  cases r with
  | none => by_cases h : rows = [] <;> simp [h]
  | some m =>
    obtain ⟨rows', h'⟩ := m
    by_cases h : rows = []
    · simp [h, Ne.symm h']
    · simp [h]

theorem ofRows?_append (rows rows' : List Sample) :
    ofRows? (rows ++ rows') = merge (ofRows? rows) (ofRows? rows') := by
  cases rows with
  | nil => cases rows' <;> rfl
  | cons s rows =>
    cases rows' with
    | nil => simp [ofRows?, merge]
    | cons s' rows' => rfl

@[simp] theorem rowsOf_ofRows? (rows : List Sample) : rowsOf (ofRows? rows) = rows :=
  (ofRows?_eq_iff.1 rfl).symm

@[simp] theorem ofRows?_rowsOf (samples : Option Matrix) : ofRows? (rowsOf samples) = samples :=
  ofRows?_eq_iff.2 rfl

theorem merge_eq_ofRows? (old new : Option Matrix) : merge old new = ofRows? (rowsOf old ++ rowsOf new) := by
  rw [ofRows?_append, ofRows?_rowsOf, ofRows?_rowsOf]

theorem joined_singleton (samples : Option Matrix) : joined [samples] = samples := by
  rw [joined, List.flatMap_singleton, ofRows?_rowsOf]

theorem joined_merge_cons (old new : Option Matrix) (all : List (Option Matrix)) :
    joined (merge old new :: all) = joined (old :: new :: all) := by
  simp only [joined, List.flatMap_cons, merge_eq_ofRows?, rowsOf_ofRows?, List.append_assoc]

theorem joined_cons (samples : Option Matrix) (all : List (Option Matrix)) :
    joined (samples :: all) = merge samples (joined all) := by
  rw [merge_eq_ofRows?, joined, joined, rowsOf_ofRows?, List.flatMap_cons]

end Campaign.Matrix
