import Campaign.Metric
import Campaign.Value

/-!
# Samples

One row of values for each attempt of a trial, and the matrix of a trial's rows. A matrix has at
least one row: a trial without attempts has no matrix.
-/

namespace Campaign

/-- Two lists of one length are equal if a test that holds of equal things only holds of each pair. -/
theorem all_zip_iff {α : Type} {test : α → α → Bool} (h : ∀ a b, test a b = true ↔ a = b) {as bs : List α}
    (hl : as.length = bs.length) : ((as.zip bs).all fun p => test p.1 p.2) = true ↔ as = bs := by
  induction as generalizing bs with
  | nil =>
    rw [List.eq_nil_of_length_eq_zero hl.symm]
    exact iff_of_true rfl rfl
  | cons a as ih =>
    cases bs with
    | nil => cases hl
    | cons b bs =>
      rw [List.zip_cons_cons, List.all_cons, Bool.and_eq_true, h, ih (Nat.succ.inj hl), List.cons.injEq]

/-- The measurements of one attempt. -/
structure Sample where
  packets : Value
  retransmissions : Value
  lossPercent : Value
  fragments : Value
  frames : Value
  bytes : Value
  time : Value
  secondaryTime : Value
deriving DecidableEq, Repr, Inhabited

namespace Sample

/-- The value of one metric. -/
def get (s : Sample) : Metric → Value
  | .packets => s.packets
  | .retransmissions => s.retransmissions
  | .lossPercent => s.lossPercent
  | .fragments => s.fragments
  | .frames => s.frames
  | .bytes => s.bytes
  | .time => s.time
  | .secondaryTime => s.secondaryTime

/-- The values in column order. -/
def values (s : Sample) : List Value :=
  Metric.all.map s.get

/-- The sample with the values of a list, in column order. -/
def ofValues? : List Value → Option Sample
  | [a, b, c, d, e, f, g, h] => some ⟨a, b, c, d, e, f, g, h⟩
  | _ => none

theorem ofValues?_values (s : Sample) : ofValues? s.values = some s := rfl

/-- Whether two samples have the same bits for each metric. -/
def same (s t : Sample) : Bool :=
  (s.values.zip t.values).all fun p => p.1.bits == p.2.bits

theorem same_iff {s t : Sample} : s.same t = true ↔ s = t := by
  have hbits (v w : Value) : (v.bits == w.bits) = true ↔ v = w := by
    cases v
    cases w
    rw [beq_iff_eq, Value.mk.injEq]
  have hl : s.values.length = t.values.length := rfl
  rw [same, all_zip_iff hbits hl]
  refine ⟨fun h => ?_, fun h => h ▸ rfl⟩
  rw [← Option.some_inj, ← s.ofValues?_values, h, t.ofValues?_values]

/-- The sample with one value for all metrics. -/
def uniform (v : Value) : Sample :=
  ⟨v, v, v, v, v, v, v, v⟩

/-- The sample of an attempt that failed. -/
def failed : Sample :=
  uniform .nan

/-- Whether no metric has a number. -/
def isFailed (s : Sample) : Bool :=
  s.values.all Value.isNaN

end Sample

/-- The samples of a trial with at least one attempt, in the order of the attempts. -/
structure Matrix where
  rows : List Sample
  rows_ne_nil : rows ≠ []
deriving Repr

namespace Matrix

/-- Whether two matrices have as many rows and the same bits at every place. -/
def same (m n : Matrix) : Bool :=
  m.rows.length == n.rows.length && (m.rows.zip n.rows).all fun p => p.1.same p.2

instance : BEq Matrix := ⟨same⟩

theorem beq_iff {m n : Matrix} : (m == n) = true ↔ m = n := by
  obtain ⟨rows, _⟩ := m
  obtain ⟨rows', _⟩ := n
  show (rows.length == rows'.length && _) = true ↔ _
  rw [Bool.and_eq_true, beq_iff_eq, mk.injEq]
  constructor
  · rintro ⟨hl, hall⟩
    exact (all_zip_iff (fun _ _ => Sample.same_iff) hl).1 hall
  · rintro rfl
    exact ⟨rfl, (all_zip_iff (fun _ _ => Sample.same_iff) rfl).2 rfl⟩

instance : DecidableEq Matrix := fun m n =>
  decidable_of_iff (m == n) beq_iff

/-- The matrix of some rows, if there are any. -/
def ofRows? (rows : List Sample) : Option Matrix :=
  if h : rows ≠ [] then some ⟨rows, h⟩ else none

def rowCount (m : Matrix) : Nat :=
  m.rows.length

/-- How many attempts failed. -/
def failedAttempts (m : Matrix) : Nat :=
  m.rows.countP Sample.isFailed

/-- The values of one metric, one for each attempt. -/
def column (m : Matrix) (metric : Metric) : List Value :=
  m.rows.map (·.get metric)

/-- The rows of `m` followed by those of `n`. -/
def append (m n : Matrix) : Matrix :=
  ⟨m.rows ++ n.rows, by simp [m.rows_ne_nil]⟩

instance : Append Matrix := ⟨append⟩

/-- The rows of both, those of `old` first. -/
def merge : (old new : Option Matrix) → Option Matrix
  | some old, some new => some (old ++ new)
  | old, none => old
  | none, new => new

end Matrix
end Campaign
