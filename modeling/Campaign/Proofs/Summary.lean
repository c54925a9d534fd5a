import Mathlib
import Campaign.Summary

/-!
# What a summary sees

The order of values is the order of the numbers they stand for (`le_iff_signedUnits`). A summary counts the
values of its metric that are numbers and bounds them from both sides by values that compare equal to one of
them; it is missing only where no value is a number, and rows without a number for the metric leave all of
it as it is (`summary?_spec`).
-/

namespace Campaign

namespace Value
variable {v w u : Value}

/-! ### The order of values -/

/-- The number that a value stands for, in units of 2^-1074. An infinity counts as the magnitude that would
come next. -/
def signedUnits (v : Value) : Int :=
  if v.negative then -(v.units : Int) else v.units

theorem unitsAt_octave {r : Nat} (q : Nat) (hr : r < octave) :
    unitsAt ((q + 1) * octave + r) = (octave + r) * 2 ^ q := by
  have hoctave : 0 < octave := by decide
  have hge : ¬(q + 1) * octave + r < octave := by rw [Nat.add_one_mul]; omega
  rw [unitsAt, if_neg hge, Nat.add_comm _ r, Nat.add_mul_mod_self_right, Nat.mod_eq_of_lt hr,
    Nat.add_mul_div_right _ _ hoctave, Nat.div_eq_of_lt hr, Nat.zero_add, Nat.add_sub_cancel, Nat.shiftLeft_eq]

theorem unitsAt_lt_succ (place : Nat) : unitsAt place < unitsAt (place + 1) := by
  have hoctave : 0 < octave := by decide
  by_cases hfirst : place + 1 < octave
  · rw [unitsAt, unitsAt, if_pos hfirst, if_pos (by omega)]
    exact Nat.lt_succ_self place
  by_cases hlast : place + 1 = octave
  · have hnext : unitsAt (place + 1) = octave := by rw [hlast]; decide
    rw [hnext, unitsAt, if_pos (by omega)]
    omega
  -- from the second octave on, a step stays in its octave or enters the next one
  obtain ⟨q, r, hr, rfl⟩ : ∃ q r, r < octave ∧ place = (q + 1) * octave + r :=
    ⟨place / octave - 1, place % octave, Nat.mod_lt _ hoctave, by
      rw [Nat.sub_add_cancel (Nat.div_pos (by omega) hoctave), Nat.div_add_mod']⟩
  rw [unitsAt_octave q hr]
  by_cases hstep : r + 1 < octave
  · rw [Nat.add_assoc, unitsAt_octave q hstep]
    exact Nat.mul_lt_mul_of_pos_right (by omega) (Nat.two_pow_pos q)
  · have hnext : (q + 1) * octave + r + 1 = (q + 1 + 1) * octave + 0 := by
      rw [Nat.add_one_mul (q + 1)]; omega
    rw [hnext, unitsAt_octave (q + 1) hoctave, Nat.pow_succ', ← Nat.mul_assoc]
    exact Nat.mul_lt_mul_of_pos_right (by omega) (Nat.two_pow_pos q)

theorem unitsAt_strictMono : StrictMono unitsAt :=
  strictMono_nat_of_lt_succ unitsAt_lt_succ

theorem rank_le_iff : v.rank ≤ w.rank ↔ v.signedUnits ≤ w.signedUnits := by
  have hle (a b : Nat) : unitsAt a ≤ unitsAt b ↔ a ≤ b := unitsAt_strictMono.le_iff_le
  have hzero (a : Nat) : unitsAt a = 0 ↔ a = 0 := by
    have h := unitsAt_strictMono.injective.eq_iff (a := a) (b := 0)
    exact h
  have hvw := hle v.place w.place
  have hwv := hle w.place v.place
  have hv := hzero v.place
  have hw := hzero w.place
  unfold rank signedUnits units
  split_ifs <;> omega

theorem le_iff : v.le w = true ↔ v.isNaN = false ∧ w.isNaN = false ∧ v.rank ≤ w.rank := by
  simp [le, and_assoc]

/-- Numbers are in order when the quantities that they stand for are, and a NaN is in order with nothing. -/
theorem le_iff_signedUnits :
    v.le w = true ↔ v.isNaN = false ∧ w.isNaN = false ∧ v.signedUnits ≤ w.signedUnits := by
  rw [le_iff, rank_le_iff]

theorem le_refl (h : v.isNaN = false) : v.le v = true :=
  le_iff.2 ⟨h, h, Int.le_refl _⟩

theorem le_trans (hvw : v.le w = true) (hwu : w.le u = true) : v.le u = true := by
  obtain ⟨hv, -, hr⟩ := le_iff.1 hvw
  obtain ⟨-, hu, hr'⟩ := le_iff.1 hwu
  exact le_iff.2 ⟨hv, hu, hr.trans hr'⟩

theorem lt_or_le (hv : v.isNaN = false) (hw : w.isNaN = false) :
    v.lt w = true ∧ v.le w = true ∨ v.lt w = false ∧ w.le v = true := by
  rw [le_iff, le_iff, lt, hv, hw]
  simp only [Bool.not_false, Bool.true_and, decide_eq_true_eq, decide_eq_false_iff_not, true_and]
  omega

theorem rank_le_infinity (h : v.isNaN = false) : v.rank ≤ infinityPlace ∧ -infinityPlace ≤ v.rank := by
  have hplace : v.place ≤ infinityPlace := by simpa [isNaN] using h
  unfold rank
  split_ifs <;> omega

theorem le_infinity (h : v.isNaN = false) : v.le .infinity = true :=
  le_iff.2 ⟨h, by decide, (rank_le_infinity h).1⟩

theorem negate_infinity_le (h : v.isNaN = false) : (negate .infinity).le v = true :=
  le_iff.2 ⟨by decide, h, (rank_le_infinity h).2⟩

end Value

/-! ### Folds that keep one of two -/

section
variable {α : Type} {choose : α → α → α} {r : α → α → Prop} {p : α → Prop} {init : α} {as : List α}

/-- A fold that keeps, of two elements, one that comes before both, ends with one that comes before all. -/
theorem foldl_choice (hrefl : ∀ a, p a → r a a) (htrans : ∀ a b c, r a b → r b c → r a c)
    (hchoose : ∀ a b, p a → p b → choose a b = a ∧ r a b ∨ choose a b = b ∧ r b a)
    (hinit : p init) (has : ∀ a ∈ as, p a) :
    as.foldl choose init ∈ init :: as ∧ ∀ a ∈ init :: as, r (as.foldl choose init) a := by
  induction as generalizing init with
  | nil =>
    refine ⟨List.mem_cons_self, fun a ha => ?_⟩
    obtain rfl := List.mem_singleton.1 ha
    exact hrefl a hinit
  | cons b as ih =>
    obtain ⟨hb, has⟩ := List.forall_mem_cons.1 has
    rw [List.foldl_cons]
    rcases hchoose init b hinit hb with ⟨he, hr⟩ | ⟨he, hr⟩
    · rw [he]
      obtain ⟨hmem, hall⟩ := ih hinit has
      obtain ⟨hself, hall⟩ := List.forall_mem_cons.1 hall
      refine ⟨?_, List.forall_mem_cons.2 ⟨hself, List.forall_mem_cons.2 ⟨htrans _ _ _ hself hr, hall⟩⟩⟩
      rcases List.mem_cons.1 hmem with hm | hm
      · exact List.mem_cons.2 (.inl hm)
      · exact List.mem_cons_of_mem _ (List.mem_cons_of_mem _ hm)
    · rw [he]
      obtain ⟨hmem, hall⟩ := ih hb has
      obtain ⟨hself, -⟩ := List.forall_mem_cons.1 hall
      exact ⟨List.mem_cons_of_mem _ hmem, List.forall_mem_cons.2 ⟨htrans _ _ _ hself hr, hall⟩⟩

/-- Started with an element that nothing comes after, such a fold ends level with an element of the list. -/
theorem foldl_choice_of_last (hrefl : ∀ a, p a → r a a) (htrans : ∀ a b c, r a b → r b c → r a c)
    (hchoose : ∀ a b, p a → p b → choose a b = a ∧ r a b ∨ choose a b = b ∧ r b a)
    (hinit : p init) (hlast : ∀ a, p a → r a init) (has : ∀ a ∈ as, p a) (hne : as ≠ []) :
    (∀ a ∈ as, r (as.foldl choose init) a) ∧
      ∃ a ∈ as, r (as.foldl choose init) a ∧ r a (as.foldl choose init) := by
  obtain ⟨hmem, hall⟩ := foldl_choice hrefl htrans hchoose hinit has
  have hall (a : α) (ha : a ∈ as) := hall a (List.mem_cons_of_mem _ ha)
  refine ⟨hall, ?_⟩
  rcases List.mem_cons.1 hmem with he | hm
  · obtain ⟨a, ha⟩ := List.exists_mem_of_ne_nil as hne
    exact ⟨a, ha, hall a ha, he.symm ▸ hlast a (has a ha)⟩
  · exact ⟨_, hm, hall _ hm, hall _ hm⟩

end

namespace Summary
variable {values : List Value}

theorem foldl_lesser (h : ∀ v ∈ values, v.isNaN = false) (hne : values ≠ []) :
    let least := values.foldl lesser .infinity
    (∀ v ∈ values, least.le v = true) ∧ ∃ v ∈ values, least.le v = true ∧ v.le least = true := by
  have hchoose (v w : Value) (hv : v.isNaN = false) (hw : w.isNaN = false) :
      lesser v w = v ∧ v.le w = true ∨ lesser v w = w ∧ w.le v = true := by
    unfold lesser
    rcases Value.lt_or_le hv hw with ⟨hlt, hle⟩ | ⟨hlt, hle⟩
    · exact .inl ⟨if_pos hlt, hle⟩
    · exact .inr ⟨if_neg (by simp [hlt]), hle⟩
  have hinfinity : Value.infinity.isNaN = false := by decide
  exact foldl_choice_of_last (r := fun v w : Value => v.le w = true) (p := fun v => v.isNaN = false)
    (fun _ => Value.le_refl) (fun _ _ _ => Value.le_trans) hchoose hinfinity (fun _ => Value.le_infinity) h hne

theorem foldl_greater (h : ∀ v ∈ values, v.isNaN = false) (hne : values ≠ []) :
    let greatest := values.foldl greater (.negate .infinity)
    (∀ v ∈ values, v.le greatest = true) ∧ ∃ v ∈ values, v.le greatest = true ∧ greatest.le v = true := by
  have hchoose (v w : Value) (hv : v.isNaN = false) (hw : w.isNaN = false) :
      greater v w = v ∧ w.le v = true ∨ greater v w = w ∧ v.le w = true := by
    unfold greater
    rcases Value.lt_or_le hw hv with ⟨hlt, hle⟩ | ⟨hlt, hle⟩
    · exact .inl ⟨if_pos hlt, hle⟩
    · exact .inr ⟨if_neg (by simp [hlt]), hle⟩
  have hinfinity : (Value.negate .infinity).isNaN = false := by decide
  exact foldl_choice_of_last (r := fun v w : Value => w.le v = true) (p := fun v => v.isNaN = false)
    (fun _ => Value.le_refl) (fun _ _ _ hvu hwv => Value.le_trans hwv hvu) hchoose hinfinity
    (fun _ => Value.negate_infinity_le) h hne

end Summary

/-! ### Rows put in between -/

/-- The second list is the first one with elements of a kind put in anywhere. -/
inductive Interspersed {α : Type} (p : α → Prop) : List α → List α → Prop
  | nil : Interspersed p [] []
  | keep (a : α) {as bs : List α} (h : Interspersed p as bs) : Interspersed p (a :: as) (a :: bs)
  | put {a : α} (ha : p a) {as bs : List α} (h : Interspersed p as bs) : Interspersed p as (a :: bs)

theorem Interspersed.imp {α : Type} {p q : α → Prop} {as bs : List α} (h : Interspersed p as bs)
    (hpq : ∀ a, p a → q a) : Interspersed q as bs := by
  induction h with
  | nil => exact .nil
  | keep a _ ih => exact .keep a ih
  | put ha _ ih => exact .put (hpq _ ha) ih

theorem Interspersed.filter_eq {α : Type} {p : α → Prop} {q : α → Bool} {as bs : List α}
    (h : Interspersed p as bs) (hpq : ∀ a, p a → q a = false) : bs.filter q = as.filter q := by
  induction h with
  | nil => rfl
  | keep a _ ih => rw [List.filter_cons, List.filter_cons, ih]
  | put ha _ ih => rw [List.filter_cons_of_neg (by simp [hpq _ ha]), ih]

namespace Matrix
variable {m n : Matrix} {metric : Metric} {s : Summary}

/-- The values of a metric that are numbers. -/
def numbers (m : Matrix) (metric : Metric) : List Value :=
  (m.column metric).filter fun v => !v.isNaN

theorem mem_numbers {v : Value} : v ∈ m.numbers metric ↔ v ∈ m.column metric ∧ v.isNaN = false := by
  simp [numbers]

theorem numbers_eq_nil : m.numbers metric = [] ↔ ∀ v ∈ m.column metric, v.isNaN = true := by
  simp [numbers]

theorem summary?_eq_none : m.summary? metric = none ↔ m.numbers metric = [] := by
  rw [summary?, ← numbers, Summary.ofNumbers?]
  split_ifs with h
  · exact iff_of_true rfl (List.isEmpty_iff.1 h)
  · exact iff_of_false (by simp) (mt List.isEmpty_iff.2 h)

theorem summary?_eq_some (h : m.summary? metric = some s) : m.numbers metric ≠ [] ∧
    s.count = (m.numbers metric).length ∧ s.least = (m.numbers metric).foldl Summary.lesser .infinity ∧
      s.greatest = (m.numbers metric).foldl Summary.greater (.negate .infinity) := by
  have hne : m.numbers metric ≠ [] := fun hnil => by
    rw [summary?_eq_none.2 hnil] at h
    cases h
  rw [summary?, ← numbers, Summary.ofNumbers?, if_neg (mt List.isEmpty_iff.1 hne)] at h
  obtain rfl := Option.some.inj h
  exact ⟨hne, rfl, rfl, rfl⟩

theorem summary?_of_interspersed (h : Interspersed (fun row => (row.get metric).isNaN = true) m.rows n.rows) :
    n.summary? metric = m.summary? metric := by
  have hrows : n.rows.filter (fun row => !(row.get metric).isNaN) = m.rows.filter fun row => !(row.get metric).isNaN :=
    h.filter_eq fun row hrow => by simp [hrow]
  have hnumbers (k : Matrix) : k.numbers metric
      = (k.rows.filter fun row => !(row.get metric).isNaN).map (·.get metric) := List.filter_map ..
  rw [summary?, ← numbers, hnumbers n, hrows, ← hnumbers m]
  rfl

/-- A metric has no summary exactly if none of its values is a number. Otherwise the summary counts the
numbers; its least value is below or equal to each of them and compares equal to one, and its greatest value
lies above them likewise. Rows without a number for the metric, as those of failed attempts are, may be put
in anywhere without any change. -/
theorem summary?_spec (metric : Metric) :
    (∀ m : Matrix, m.summary? metric = none ↔ ∀ v ∈ m.column metric, v.isNaN = true) ∧
    (∀ (m : Matrix) (s : Summary), m.summary? metric = some s →
      s.count = (m.column metric).countP (fun v => !v.isNaN) ∧
      (∀ v ∈ m.column metric, v.isNaN = false → s.least.le v = true ∧ v.le s.greatest = true) ∧
      (∃ v ∈ m.column metric, s.least.le v = true ∧ v.le s.least = true) ∧
      ∃ v ∈ m.column metric, v.le s.greatest = true ∧ s.greatest.le v = true) ∧
    (∀ m n : Matrix, Interspersed (fun row => (row.get metric).isNaN = true) m.rows n.rows →
      n.summary? metric = m.summary? metric) ∧
    (∀ m n : Matrix, Interspersed (· = Sample.failed) m.rows n.rows →
      n.summary? metric = m.summary? metric) ∧
    ∀ v w : Value, v.le w = true ↔ v.isNaN = false ∧ w.isNaN = false ∧ v.signedUnits ≤ w.signedUnits := by
  refine ⟨fun m => summary?_eq_none.trans numbers_eq_nil, fun m s h => ?_,
    fun m n => summary?_of_interspersed, fun m n h => ?_, fun v w => Value.le_iff_signedUnits⟩
  · obtain ⟨hne, hcount, hleast, hgreatest⟩ := summary?_eq_some h
    have hnumbers : ∀ v ∈ m.numbers metric, v.isNaN = false := fun v hv => (mem_numbers.1 hv).2
    obtain ⟨hbelow, v, hv, hleastv⟩ := Summary.foldl_lesser hnumbers hne
    obtain ⟨habove, w, hw, hgreatestw⟩ := Summary.foldl_greater hnumbers hne
    rw [← hleast] at hbelow hleastv
    rw [← hgreatest] at habove hgreatestw
    refine ⟨hcount.trans List.countP_eq_length_filter.symm, fun u hu hnan => ?_,
      ⟨v, (mem_numbers.1 hv).1, hleastv⟩, w, (mem_numbers.1 hw).1, hgreatestw⟩
    have hmem := mem_numbers.2 ⟨hu, hnan⟩
    exact ⟨hbelow u hmem, habove u hmem⟩
  · refine summary?_of_interspersed (h.imp fun row hrow => ?_)
    subst hrow
    cases metric <;> decide

/-- An infinity and a zero, and the same between attempts that failed. -/
theorem summary?_two :
    let zero : Value := ⟨0x8000000000000000⟩
    let m : Matrix := ⟨[.uniform .infinity, .uniform zero], by simp⟩
    let n : Matrix := ⟨[.failed, .uniform .infinity, .failed, .uniform zero, .failed], by simp⟩
    ∃ s, m.summary? .bytes = some s ∧ n.summary? .bytes = some s ∧ s.count = 2 ∧ s.least.le zero = true ∧
      Value.le .infinity s.greatest = true := by
  intro zero m n
  obtain ⟨hnone, hsome, -, hfailed, -⟩ := summary?_spec .bytes
  have hput {as bs : List Sample} (h : Interspersed (· = Sample.failed) as bs) :
      Interspersed (· = Sample.failed) as (.failed :: bs) :=
    .put (p := (· = Sample.failed)) rfl h
  have hn : Interspersed (· = Sample.failed) m.rows n.rows := hput (.keep _ (hput (.keep _ (hput .nil))))
  obtain ⟨s, hs⟩ : ∃ s, m.summary? .bytes = some s := by
    refine Option.ne_none_iff_exists'.1 fun h => ?_
    have hnan := (hnone m).1 h zero (by decide)
    exact absurd hnan (by decide)
  obtain ⟨hcount, hbounds, -⟩ := hsome m s hs
  have hle := (hbounds zero (by decide) (by decide)).1
  have hge := (hbounds .infinity (by decide) (by decide)).2
  exact ⟨s, hs, (hfailed m n hn).trans hs, hcount.trans (by decide), hle, hge⟩

end Matrix
end Campaign
