import Mathlib
import Campaign.Proofs.Except
import Campaign.Proofs.Table

/-!
# Rows from elsewhere

A table with the standard schema is keyed whatever rows are planted in it behind the back of a store: texts,
real numbers and bytes as the fields of a key, integers that no trial has, anything as samples. Its columns
make an integer of all that is worth the value of a parameter (`eq_integer_of_isWorth`), and its key lets no
two rows have the same integers (`settle_standard_eq_some`).
-/

namespace Campaign

namespace Text

theorem dropAround_eq_self {p : Char → Bool} {s : List Char} (h : ∀ c ∈ s, p c = false) :
    dropAround p s = s := by
  have hdrop {s : List Char} (h : ∀ c ∈ s, p c = false) : s.dropWhile p = s := by
    cases s with
    | nil => rfl
    | cons c s => rw [List.dropWhile_cons_of_neg (by simp [h c List.mem_cons_self])]
  rw [dropAround, hdrop h, dropEndWhile, hdrop fun c hc => h c (List.mem_reverse.1 hc), List.reverse_reverse]

theorem splitSign_toDigits (n : Nat) : splitSign (Nat.toDigits 10 n) = (false, Nat.toDigits 10 n) := by
  have hdigit : ∀ c ∈ Nat.toDigits 10 n, c.isDigit = true := fun c hc =>
    Nat.isDigit_of_mem_toDigits (by decide) (by decide) hc
  unfold splitSign
  split
  next heq => exact absurd (hdigit '-' (heq ▸ List.mem_cons_self)) (by decide)
  next heq => exact absurd (hdigit '+' (heq ▸ List.mem_cons_self)) (by decide)
  · rfl

/-- The digits of a number behind a sign. -/
theorem integer?_of_splitSign {s : List Char} {negative : Bool} {n : Nat}
    (h : splitSign s = (negative, Nat.toDigits 10 n)) : integer? s = fitting? (if negative then -n else n) := by
  have hdigit : ∀ c ∈ Nat.toDigits 10 n, c.isDigit = true := fun c hc =>
    Nat.isDigit_of_mem_toDigits (by decide) (by decide) hc
  rw [integer?, h]
  simp only [signed, Nat.ofDigitChars_toDigits (by decide : 1 < 10) (by decide : 10 ≤ 10)]
  rw [if_pos ⟨Nat.toDigits_ne_nil, List.all_eq_true.2 hdigit⟩]

theorem integer?_toDigits {n : Nat} (hn : n < 2 ^ 32) : integer? (Nat.toDigits 10 n) = some (n : Int) := by
  rw [integer?_of_splitSign (splitSign_toDigits n), fitting?, if_pos]
  · rfl
  · unfold leastInteger greatestInteger
    simp only [Bool.false_eq_true, if_false]
    omega

end Text

namespace Cell

theorem isBlankAround_of_isDigit {c : Char} (h : c.isDigit = true) : isBlankAround c = false := by
  simp only [Char.isDigit, Bool.and_eq_true, decide_eq_true_eq, ge_iff_le, UInt32.le_iff_toNat_le] at h
  simp only [isBlankAround, Bool.or_eq_false_iff, beq_eq_false_iff_ne, Bool.and_eq_false_iff,
    decide_eq_false_iff_not, Char.le_def, UInt32.le_iff_toNat_le]
  refine ⟨?_, .inr ?_⟩
  · rintro rfl
    simp at h
  · simp at h ⊢
    omega

theorem ofNumber?_toString {n : Nat} (hn : n < 2 ^ 32) :
    ofNumber? (toString (n : Int)) = some (.integer n) := by
  have htext : (toString (n : Int)).toList = Nat.toDigits 10 n := by
    rw [show toString (n : Int) = toString n from rfl, Nat.toString_eq_ofList_toDigits, String.toList_ofList]
  have hblank : ∀ c ∈ Nat.toDigits 10 n, isBlankAround c = false := fun c hc =>
    isBlankAround_of_isDigit (Nat.isDigit_of_mem_toDigits (by decide) (by decide) hc)
  rw [ofNumber?, htext, Text.dropAround_eq_self hblank, ofDigits?, Text.integer?_toDigits hn]

theorem ofDigits?_ne_text {s : List Char} {t : String} : ofDigits? s ≠ some (.text t) := by
  unfold ofDigits?
  split
  · simp
  · intro h
    obtain ⟨_, -, h⟩ := Option.map_eq_some_iff.1 h
    cases h

theorem unitsOfOne_pos : 0 < Value.unitsOfOne :=
  (Nat.two_pow_pos 1074).trans_eq (Nat.one_shiftLeft 1074).symm

/-- Infinities and what is not a number are worth more than a parameter can be. -/
theorem le_units_of_not_isFinite {v : Value} (h : ¬ v.isFinite = true) :
    2 ^ 32 * Value.unitsOfOne ≤ v.units := by
  have hplace : 2047 * Value.octave ≤ v.place := by
    rwa [Value.isFinite, decide_eq_true_eq, Nat.not_lt, Value.infinityPlace] at h
  have hsmall : ¬ v.place < Value.octave := by unfold Value.octave at hplace ⊢; omega
  have hsteps : 2047 ≤ v.place / Value.octave := (Nat.le_div_iff_mul_le (by decide)).2 hplace
  have hone : Value.unitsOfOne ≤ 2 ^ (v.place / Value.octave - 1) :=
    (Nat.one_shiftLeft 1074).trans_le (Nat.pow_le_pow_right two_pos (by omega))
  have hstep : 2 ^ 32 ≤ Value.octave + v.place % Value.octave :=
    le_add_right (show 2 ^ 32 ≤ Value.octave by decide)
  rw [Value.units, Value.unitsAt, if_neg hsmall, Nat.shiftLeft_eq]
  exact Nat.mul_le_mul hstep hone

/-- A real number that is worth a value of a parameter becomes that integer. -/
theorem integerIfWhole_eq {v : Value} {n : Nat} (hn : n < 2 ^ 32) (h : unitsOfReal v = unitsOfInteger n) :
    integerIfWhole v = .integer n := by
  have hfinite : v.isFinite = true := by
    by_contra hf
    have hle := le_units_of_not_isFinite hf
    have hlt := Nat.mul_lt_mul_of_pos_right hn unitsOfOne_pos
    have hunits : v.units = n * Value.unitsOfOne := by
      rw [unitsOfReal, unitsOfInteger, ← Nat.cast_mul] at h
      generalize n * Value.unitsOfOne = m at h ⊢
      split_ifs at h <;> omega
    exact absurd (hle.trans_eq hunits) (Nat.not_le.2 hlt)
  have hwhole : unitsOfInteger n / (Value.unitsOfOne : Int) = n :=
    Int.mul_ediv_cancel _ (Int.natCast_ne_zero.2 unitsOfOne_pos.ne')
  have hleast : Text.leastInteger < (n : Int) := by unfold Text.leastInteger; omega
  have hgreatest : (n : Int) < Text.greatestInteger := by unfold Text.greatestInteger; omega
  simp only [integerIfWhole, h, hwhole, hfinite, hleast, hgreatest, beq_self_eq_true, decide_true, Bool.and_self,
    if_true]

end Cell

namespace Affinity
variable {n : Nat}

theorem integerIfWhole_cases (v : Value) :
    (∃ m, Cell.integerIfWhole v = .integer m) ∨ Cell.integerIfWhole v = .real v := by
  unfold Cell.integerIfWhole
  dsimp only
  split_ifs
  · exact .inl ⟨_, rfl⟩
  · exact .inr rfl

theorem integerIfWhole_eq_of_isWorth (hn : n < 2 ^ 32) {v : Value}
    (h : (Cell.integerIfWhole v).isWorth n = true) : Cell.integerIfWhole v = .integer n := by
  rcases integerIfWhole_cases v with ⟨m, hv⟩ | hv <;> rw [hv] at h
  · rw [hv]; exact congrArg Cell.integer (beq_iff_eq.1 h)
  · exact Cell.integerIfWhole_eq hn (beq_iff_eq.1 h)

/-- What is worth a value of a parameter in a column for numbers is that integer. -/
theorem eq_integer_of_isWorth (hn : n < 2 ^ 32) {cell : Cell}
    (h : (numeric.apply cell).isWorth n = true) : numeric.apply cell = .integer n := by
  cases cell with
  | absent | blob bytes => cases h
  | integer m => exact congrArg Cell.integer (beq_iff_eq.1 h)
  | real v => exact integerIfWhole_eq_of_isWorth hn h
  | text s =>
    simp only [apply] at h ⊢
    cases hs : numberOr s with
    | real v => rw [hs] at h; exact integerIfWhole_eq_of_isWorth hn h
    | integer m => rw [hs] at h; exact congrArg Cell.integer (beq_iff_eq.1 h)
    | absent | blob bytes => rw [hs] at h; cases h
    | text t =>
      rw [hs] at h
      obtain rfl : t = toString (n : Int) := beq_iff_eq.1 h
      unfold numberOr at hs
      split at hs
      next c hc => exact absurd (hs ▸ hc) Cell.ofDigits?_ne_text
      next hc =>
        obtain rfl := Cell.text.inj hs
        rw [Cell.ofNumber?_toString hn] at hc
        cases hc

end Affinity

namespace Schema
variable {s : Schema} {forced : Option Reaction} {row row' : Row} {others kept : Neighbours}

/-- Where no column has a cell for the rows that are given none, a row is filled with nothing. -/
theorem eq_of_fill {columns : List Column} (hc : ∀ column ∈ columns, column.standard = .absent)
    (h : s.fill forced row columns = .ok (some row')) : row' = row := by
  induction columns with
  | nil => exact (Option.some.inj (Except.ok.inj h)).symm
  | cons column columns ih =>
    have ih := ih fun column hm => hc column (List.mem_cons_of_mem _ hm)
    rw [fill, hc column List.mem_cons_self] at h
    split at h
    · exact ih h
    split at h
    · exact ih h
    split at h <;> cases h

theorem Neighbours.any_eq_false_iff {test : Row → Bool} {n : Neighbours} :
    n.any test = false ↔ (∀ row ∈ n.before, test row = false) ∧ ∀ row ∈ n.behind, test row = false := by
  simp [any]

/-- The rows that stay beside a row were there before, and none of them is the same in a key. -/
theorem clear_eq_some {keys : List UniqueKey} (h : s.clear forced row keys others = .ok (some kept)) :
    kept.before.Sublist others.before ∧ kept.behind.Sublist others.behind ∧
      ∀ key ∈ keys, kept.any (hasValues (s.values key row)) = false := by
  induction keys generalizing others with
  | nil =>
    obtain rfl := Option.some.inj (Except.ok.inj h)
    exact ⟨.refl _, .refl _, fun key hk => absurd hk List.not_mem_nil⟩
  | cons key keys ih =>
    -- with the rows that this key leaves, the other keys go on
    have step {left : Neighbours} (hl : s.clear forced row keys left = .ok (some kept))
        (hbefore : left.before.Sublist others.before) (hbehind : left.behind.Sublist others.behind)
        (hfree : left.any (hasValues (s.values key row)) = false) :
        kept.before.Sublist others.before ∧ kept.behind.Sublist others.behind ∧
          ∀ key' ∈ key :: keys, kept.any (hasValues (s.values key' row)) = false := by
      obtain ⟨hbefore', hbehind', hkeys⟩ := ih hl
      refine ⟨hbefore'.trans hbefore, hbehind'.trans hbehind, List.forall_mem_cons.2 ⟨?_, hkeys⟩⟩
      rw [Neighbours.any_eq_false_iff] at hfree ⊢
      exact ⟨fun other hm => hfree.1 other (hbefore'.mem hm), fun other hm => hfree.2 other (hbehind'.mem hm)⟩
    rw [clear] at h
    split at h
    · split at h
      · cases h
      · cases h
      · refine step h List.filter_sublist List.filter_sublist ?_
        rw [Neighbours.any_eq_false_iff]
        exact ⟨fun other hm => by simpa using List.of_mem_filter hm,
          fun other hm => by simpa using List.of_mem_filter hm⟩
    next hany => exact step h (.refl _) (.refl _) (Bool.not_eq_true _ ▸ hany)

/-- What the standard schema writes: a row in the form of its columns, beside rows without its key. -/
theorem settle_standard_eq_some {isNew : Bool}
    (h : standard.settle forced isNew others row = .ok (some (row', kept))) :
    row' = standard.shape row ∧ kept.before.Sublist others.before ∧ kept.behind.Sublist others.behind ∧
      ∀ key ∈ standard.keys, kept.any (hasValues (standard.values key row')) = false := by
  have hnumber (row : Row) : standard.number isNew others row = .ok row := rfl
  have habsent : ∀ column ∈ standard.columns, column.standard = .absent := by decide
  simp only [settle, show standard.references = [] from rfl, hnumber, bind_eq_ok, Except.ok.injEq] at h
  obtain ⟨_, rfl, filled, hf, h⟩ := h
  cases filled with
  | none => cases h
  | some filled =>
    simp only [bind_eq_ok, pure, Except.pure, Except.ok.injEq, Option.map_eq_some_iff] at h
    obtain ⟨-, -, cleared, hc, _, rfl, h⟩ := h
    obtain ⟨rfl, rfl⟩ := Prod.mk.inj h
    exact ⟨eq_of_fill habsent hf, clear_eq_some hc⟩

end Schema

namespace Table
variable {t t' : Table} {row : Row}

/-- In the form of the standard columns, a row has the key of a trial as integers or not at all. -/
theorem key_shape_of_hasKey {k : Key} (h : (Schema.standard.shape row).hasKey k.integers = true) :
    (Schema.standard.shape row).key = k.integers.map .integer := by
  refine Setting.ext_get fun p => ?_
  have hp := List.all_eq_true.1 h p (by cases p <;> simp [Parameter.all])
  simp only [Schema.shape, Setting.get_ofFn, Schema.affinity_standard, Key.integers, Setting.map] at hp ⊢
  exact Affinity.eq_integer_of_isWorth (k.get p).toNat_lt hp

/-- Rows with the same integers are the same in the standard key. -/
theorem hasValues_of_key {key : Setting Int} {other : Row} (h : row.key = key.map .integer)
    (ho : other.key = key.map .integer) {unique : UniqueKey} (hu : unique ∈ Schema.standard.keys) :
    Schema.hasValues (Schema.standard.values unique row) other = true := by
  obtain rfl : unique = { columns := Parameter.all.map fun p => (p.columnName, .binary) } :=
    List.mem_singleton.1 hu
  simp only [Schema.hasValues, Schema.values, List.map_map, List.all_map, List.all_eq_true,
    Function.comp_apply, Schema.reader_standard, h, ho, Setting.map, Setting.get_ofFn]
  intro p _
  simp [Cell.same, Cell.order, Cell.rank, Cell.compareIntegers_eq_iff]

theorem Keyed.addWith (h : t.Keyed) {forced : Option Reaction} (ha : t.addWith forced row = .ok t') :
    t'.Keyed := by
  obtain ⟨settled, hs, rfl⟩ := map_eq_ok.1 ha
  cases settled with
  | none => exact h
  | some settled =>
    obtain ⟨row', kept⟩ := settled
    rw [h.schema] at hs
    obtain ⟨rfl, hkept, -, hfree⟩ := Schema.settle_standard_eq_some hs
    refine ⟨h.schema, fun row' hm k hk => ?_, fun k => ?_⟩
    · rcases List.mem_append.1 hm with hm | hm
      · exact h.integers row' (hkept.mem hm) k hk
      · obtain rfl := List.mem_singleton.1 hm
        exact key_shape_of_hasKey hk
    · rw [List.countP_append, List.countP_singleton]
      split_ifs with hk
      · have hnone : kept.before.countP (Row.hasKey k.integers) = 0 := by
          refine List.countP_eq_zero.2 fun other hm ho => ?_
          obtain ⟨unique, hunique⟩ : ∃ unique, unique ∈ Schema.standard.keys := ⟨_, List.mem_singleton_self _⟩
          have hsame := hasValues_of_key (key_shape_of_hasKey hk) (h.integers other (hkept.mem hm) k ho) hunique
          have hother := (Schema.Neighbours.any_eq_false_iff.1 (hfree _ hunique)).1 other hm
          exact Bool.false_ne_true (hother.symm.trans hsame)
        rw [hnone]
      · exact hkept.countP_le.trans (h.distinct k)

/-- Whatever is added to a keyed table, in the place of other rows or not, it stays keyed. -/
theorem Keyed.foldlM_addWith (h : t.Keyed) {additions : List (Option Reaction × Row)}
    (ha : additions.foldlM (fun t (forced, row) => t.addWith forced row) t = .ok t') : t'.Keyed := by
  induction additions generalizing t with
  | nil => exact Except.ok.inj ha ▸ h
  | cons addition additions ih =>
    obtain ⟨t₁, hr, ha⟩ := bind_eq_ok.1 ha
    exact ih (h.addWith hr) ha

end Table
end Campaign
