import Mathlib
import Campaign.Proofs.Summary
import Campaign.Value.Nearest

/-!
# Rounding to the nearest value

A number rounds to a place if it lies between the midpoints to the neighbouring magnitudes, or on one of them
and the place is even. A number rounds to one place only, and that is the place which `nearestPlace` and
`placeOfDecimal` give (`nearestPlace_eq`, `placeOfDecimal_eq`).
-/

namespace Campaign

/-- A quotient is at most a half away from what it is rounded to, and that is even if it is a half away. All
is multiplied by twice the divisor. -/
theorem roundHalfEven_spec {n d : Nat} (hd : 0 < d) :
    2 * roundHalfEven n d * d ≤ 2 * n + d ∧ 2 * n ≤ 2 * roundHalfEven n d * d + d ∧
    (2 * roundHalfEven n d * d = 2 * n + d ∨ 2 * n = 2 * roundHalfEven n d * d + d →
      roundHalfEven n d % 2 = 0) := by
  have hn := Nat.div_add_mod' n d
  have hr := Nat.mod_lt n hd
  unfold roundHalfEven
  simp only [Bool.or_eq_true, Bool.and_eq_true, decide_eq_true_eq, beq_iff_eq]
  generalize n % d = r at hn hr ⊢
  generalize n / d = q at hn ⊢
  subst hn
  have hmul : 2 * (q + 1) * d = 2 * (q * d) + 2 * d := by ring
  have hmul' : 2 * q * d = 2 * (q * d) := by ring
  split_ifs with h
  · rw [hmul]
    omega
  · rw [hmul']
    omega

/-- The same for the multiple of a power of two that a quotient is rounded to. -/
theorem roundHalfEven_step {d : Nat} (hd : 0 < d) (n k : Nat) :
    (2 * roundHalfEven n (d <<< k) * 2 ^ k : ℚ) ≤ 2 * (n / d) + 2 ^ k ∧
    (2 * (n / d) : ℚ) ≤ 2 * roundHalfEven n (d <<< k) * 2 ^ k + 2 ^ k ∧
    ((2 * roundHalfEven n (d <<< k) * 2 ^ k : ℚ) = 2 * (n / d) + 2 ^ k ∨
      (2 * (n / d) : ℚ) = 2 * roundHalfEven n (d <<< k) * 2 ^ k + 2 ^ k →
        roundHalfEven n (d <<< k) % 2 = 0) := by
  have hd' : (0 : ℚ) < d := by exact_mod_cast hd
  have hstep : 0 < d <<< k := by rw [Nat.shiftLeft_eq]; positivity
  obtain ⟨hlow, hhigh, heven⟩ := roundHalfEven_spec (n := n) hstep
  generalize roundHalfEven n (d <<< k) = m at *
  rw [Nat.shiftLeft_eq] at hlow hhigh heven
  -- the sides of the bounds, divided by `d`
  have hexact : ((2 * n : Nat) : ℚ) = d * (2 * (n / d)) := by push_cast; field_simp
  have hrounded : ((2 * m * (d * 2 ^ k) : Nat) : ℚ) = d * (2 * m * 2 ^ k) := by push_cast; ring
  have hwidth : ((d * 2 ^ k : Nat) : ℚ) = d * 2 ^ k := by push_cast; ring
  rw [← Nat.cast_le (α := ℚ), Nat.cast_add, hexact, hrounded, hwidth, ← mul_add] at hlow hhigh
  rw [← Nat.cast_inj (R := ℚ), ← Nat.cast_inj (R := ℚ), Nat.cast_add, Nat.cast_add, hexact, hrounded, hwidth,
    ← mul_add, ← mul_add, mul_right_inj' hd'.ne', mul_right_inj' hd'.ne'] at heven
  exact ⟨le_of_mul_le_mul_left hlow hd', le_of_mul_le_mul_left hhigh hd', heven⟩

namespace Value
variable {x : ℚ} {place place' m k n d bound : Nat}

/-- A number of units lies nearest to the magnitude at a place, and as near to a neighbouring one only if the
place is even. -/
structure RoundsTo (x : ℚ) (place : Nat) : Prop where
  low : unitsAt (place - 1) + unitsAt place ≤ 2 * x
  high : 2 * x ≤ unitsAt place + unitsAt (place + 1)
  even : 2 * x = unitsAt (place - 1) + unitsAt place ∨ 2 * x = unitsAt place + unitsAt (place + 1) →
    place % 2 = 0

namespace RoundsTo

theorem of_eq {y : ℚ} (h : RoundsTo x place) (hy : y = x) : RoundsTo y place :=
  hy ▸ h

/-- A lesser place lies wholly below, and where two places meet one of them is odd. -/
theorem not_lt (h : RoundsTo x place) (h' : RoundsTo x place') : ¬place < place' := by
  intro hlt
  have hmono := unitsAt_strictMono.monotone
  have hleft : unitsAt place ≤ unitsAt (place' - 1) := hmono (by omega)
  have hright : unitsAt (place + 1) ≤ unitsAt place' := hmono hlt
  have hmeet : unitsAt (place' - 1) + unitsAt place' ≤ unitsAt place + unitsAt (place + 1) := by
    exact_mod_cast h'.low.trans h.high
  have hnext : place + 1 = place' := unitsAt_strictMono.injective (by omega)
  subst hnext
  have hx : 2 * x = unitsAt place + unitsAt (place + 1) := le_antisymm h.high h'.low
  have heven := h.even (.inr hx)
  have heven' := h'.even (.inl hx)
  omega

theorem unique (h : RoundsTo x place) (h' : RoundsTo x place') : place = place' :=
  Nat.le_antisymm (Nat.le_of_not_lt (h'.not_lt h)) (Nat.le_of_not_lt (h.not_lt h'))

end RoundsTo

/-- A magnitude lies nearest to itself. -/
theorem roundsTo_unitsAt (hplace : 0 < place) : RoundsTo (unitsAt place) place := by
  have hbelow : (unitsAt (place - 1) : ℚ) < unitsAt place := by
    exact_mod_cast unitsAt_strictMono (by omega)
  have habove : (unitsAt place : ℚ) < unitsAt (place + 1) := by
    exact_mod_cast unitsAt_lt_succ place
  refine ⟨by linarith, by linarith, ?_⟩
  rintro (h | h)
  · linarith
  · linarith

/-! ### The steps between magnitudes -/

/-- As long as a step stays the same, magnitudes are its multiples. -/
theorem unitsAt_add (hm : m ≤ 2 * octave) (hk : k = 0 ∨ octave ≤ m) :
    unitsAt (m + k * octave) = m * 2 ^ k := by
  by_cases hfirst : m < octave
  · obtain rfl : k = 0 := by omega
    rw [Nat.zero_mul, Nat.add_zero, unitsAt, if_pos hfirst, Nat.pow_zero, Nat.mul_one]
  obtain ⟨r, rfl⟩ := Nat.exists_eq_add_of_le (Nat.le_of_not_lt hfirst)
  by_cases hlast : r < octave
  · have hplace : octave + r + k * octave = (k + 1) * octave + r := by ring
    rw [hplace, unitsAt_octave k hlast]
  · obtain rfl : r = octave := by omega
    have hplace : octave + octave + k * octave = (k + 1 + 1) * octave + 0 := by ring
    rw [hplace, unitsAt_octave (k + 1) (by decide), Nat.pow_succ]
    ring

theorem le_of_steps (h : (2 * m * 2 ^ k : ℚ) ≤ 2 * x + 2 ^ k) (hx : x < bound * 2 ^ k) : m ≤ bound := by
  by_contra hlt
  have hlt : (bound + 1 : ℚ) * 2 ^ k ≤ m * 2 ^ k :=
    mul_le_mul_of_nonneg_right (by exact_mod_cast Nat.lt_of_not_le hlt) (by positivity)
  have hpow : (0 : ℚ) < 2 ^ k := by positivity
  linarith

theorem steps_le (h : (2 * x : ℚ) ≤ 2 * m * 2 ^ k + 2 ^ k) (hx : bound * 2 ^ k ≤ x) : bound ≤ m := by
  by_contra hlt
  have hlt : (m + 1 : ℚ) * 2 ^ k ≤ bound * 2 ^ k :=
    mul_le_mul_of_nonneg_right (by exact_mod_cast Nat.lt_of_not_le hlt) (by positivity)
  have hpow : (0 : ℚ) < 2 ^ k := by positivity
  linarith

/-- Below a multiple of a step lies the one before, unless it is the first of an octave or zero. -/
theorem unitsAt_below (hm : m ≤ 2 * octave) (hk : k = 0 ∨ octave ≤ m) :
    (unitsAt (m + k * octave - 1) : ℚ) = m * 2 ^ k - 2 ^ k ∨
    m = octave ∧ k ≠ 0 ∧ unitsAt (m + k * octave - 1) < (m * 2 ^ k : ℚ) ∨ m = 0 ∧ k = 0 := by
  by_cases hzero : m = 0 ∧ k = 0
  · exact .inr (.inr hzero)
  by_cases hinner : k = 0 ∨ octave + 1 ≤ m
  · refine .inl ?_
    obtain ⟨m, rfl⟩ : ∃ m', m = m' + 1 := ⟨m - 1, by unfold octave at *; omega⟩
    have hplace : m + 1 + k * octave - 1 = m + k * octave := by omega
    rw [hplace, unitsAt_add (by omega) (by omega)]
    push_cast
    ring
  · have hlt : unitsAt (m + k * octave - 1) < unitsAt (m + k * octave) :=
      unitsAt_strictMono (by unfold octave at *; omega)
    rw [unitsAt_add hm hk] at hlt
    exact .inr (.inl ⟨by omega, by omega, by exact_mod_cast hlt⟩)

/-- Above a multiple of a step lies the next one, unless it is the end of an octave. -/
theorem unitsAt_above (hm : m ≤ 2 * octave) (hk : k = 0 ∨ octave ≤ m) :
    (unitsAt (m + k * octave + 1) : ℚ) = m * 2 ^ k + 2 ^ k ∨
    m = 2 * octave ∧ (m * 2 ^ k : ℚ) < unitsAt (m + k * octave + 1) := by
  by_cases hend : m + 1 ≤ 2 * octave
  · refine .inl ?_
    have hplace : m + k * octave + 1 = m + 1 + k * octave := by omega
    rw [hplace, unitsAt_add hend (hk.imp_right Nat.le_succ_of_le)]
    push_cast
    ring
  · have hlt := unitsAt_lt_succ (m + k * octave)
    rw [unitsAt_add hm hk] at hlt
    exact .inr ⟨by omega, by exact_mod_cast hlt⟩

/-- Among the multiples of a step, the one that a number is rounded to is the magnitude that lies nearest. -/
theorem roundsTo_of_step (hx : 0 ≤ x) (hlast : x < (2 * octave : Nat) * 2 ^ k)
    (hfirst : k = 0 ∨ octave * 2 ^ k ≤ x) (hlow : 2 * m * 2 ^ k ≤ 2 * x + 2 ^ k)
    (hhigh : 2 * x ≤ 2 * m * 2 ^ k + 2 ^ k)
    (heven : 2 * m * 2 ^ k = 2 * x + 2 ^ k ∨ 2 * x = 2 * m * 2 ^ k + 2 ^ k → m % 2 = 0) :
    RoundsTo x (m + k * octave) := by
  have hm : m ≤ 2 * octave := le_of_steps hlow hlast
  have hk : k = 0 ∨ octave ≤ m := hfirst.imp_right (steps_le hhigh)
  have hparity : (m + k * octave) % 2 = m % 2 := by unfold octave; omega
  have hunits : (unitsAt (m + k * octave) : ℚ) = m * 2 ^ k := by
    exact_mod_cast unitsAt_add hm hk
  -- where no multiple of the step is next, the number lies on the other side
  have hbelow : (unitsAt (m + k * octave - 1) : ℚ) = m * 2 ^ k - 2 ^ k ∨
      unitsAt (m + k * octave - 1) < (m * 2 ^ k : ℚ) ∧ m * 2 ^ k ≤ x ∨ m = 0 ∧ k = 0 := by
    refine (unitsAt_below hm hk).imp_right (Or.imp_left ?_)
    rintro ⟨rfl, hstep, hlt⟩
    exact ⟨hlt, hfirst.resolve_left hstep⟩
  have habove : (unitsAt (m + k * octave + 1) : ℚ) = m * 2 ^ k + 2 ^ k ∨
      (m * 2 ^ k : ℚ) < unitsAt (m + k * octave + 1) ∧ x ≤ m * 2 ^ k := by
    refine (unitsAt_above hm hk).imp_right ?_
    rintro ⟨rfl, hlt⟩
    exact ⟨hlt, hlast.le⟩
  refine ⟨?_, ?_, ?_⟩
  · rw [hunits]
    rcases hbelow with h | ⟨h, hx⟩ | ⟨rfl, rfl⟩
    · rw [h]
      linarith
    · linarith
    · simpa [unitsAt, octave] using hx
  · rw [hunits]
    rcases habove with h | ⟨h, hx⟩
    · rw [h]
      linarith
    · linarith
  · rw [hunits, hparity]
    rintro (htie | htie)
    · rcases hbelow with h | ⟨h, hx⟩ | ⟨rfl, rfl⟩
      · rw [h] at htie
        exact heven (.inl (by linarith))
      · linarith
      · rfl
    · rcases habove with h | ⟨h, hx⟩
      · rw [h] at htie
        exact heven (.inr (by linarith))
      · linarith

/-! ### Nearest places -/

/-- The number of doublings is the one at which a quotient lies among the magnitudes of one octave. -/
theorem doublings_spec (whole : Nat) : whole < 2 * octave * 2 ^ doublings whole ∧
    (doublings whole = 0 ∨ octave * 2 ^ doublings whole ≤ whole) := by
  have hoctave : octave = 2 ^ 52 := by decide
  rw [hoctave, ← Nat.pow_succ', ← Nat.pow_add, ← Nat.pow_add]
  constructor
  · exact Nat.lt_log2_self.trans_le (Nat.pow_le_pow_right (by decide) (by unfold doublings; omega))
  · by_cases hzero : doublings whole = 0
    · exact .inl hzero
    · refine .inr ?_
      unfold doublings at hzero ⊢
      have hlog : 52 + (whole.log2 - 52) = whole.log2 := by omega
      rw [hlog]
      refine Nat.log2_self_le ?_
      rintro rfl
      exact hzero (by decide)

theorem exists_nearestPlace (n : Nat) (hd : 0 < d) :
    ∃ place, nearestPlace n d = min infinityPlace place ∧ RoundsTo (n / d) place := by
  refine ⟨_, rfl, ?_⟩
  have hd' : (0 : ℚ) < d := by exact_mod_cast hd
  obtain ⟨hlast, hfirst⟩ := doublings_spec (n / d)
  obtain ⟨hlow, hhigh, heven⟩ := roundHalfEven_step hd n (doublings (n / d))
  refine roundsTo_of_step (by positivity) ?_ (hfirst.imp_right fun h => ?_) hlow hhigh heven
  · rw [div_lt_iff₀ hd']
    exact_mod_cast (Nat.div_lt_iff_lt_mul hd).1 hlast
  · rw [le_div_iff₀ hd']
    exact_mod_cast (Nat.le_div_iff_mul_le hd).1 h

/-- A quotient of units is rounded to the place that it rounds to. -/
theorem nearestPlace_eq (hd : 0 < d) (hplace : place ≤ infinityPlace) (h : RoundsTo (n / d) place) :
    nearestPlace n d = place := by
  obtain ⟨place', heq, h'⟩ := exists_nearestPlace n hd
  rw [heq, h'.unique h, Nat.min_eq_right hplace]

/-! ### Places of decimals -/

theorem digits_lt (digits : Nat) : digits < 10 ^ (Nat.toDigits 10 digits).length :=
  (Nat.length_toDigits_le_iff (by decide) Nat.length_toDigits_pos).1 le_rfl

theorem le_digits {digits : Nat} (h : digits ≠ 0) : 10 ^ ((Nat.toDigits 10 digits).length - 1) ≤ digits := by
  by_cases hone : (Nat.toDigits 10 digits).length - 1 = 0
  · rw [hone]
    omega
  · rw [← not_lt, ← Nat.length_toDigits_le_iff (by decide) (by omega)]
    omega

theorem le_number {digits count : Nat} {exponent power : Int} (h : 10 ^ count ≤ digits)
    (hp : power ≤ count + exponent) : (10 ^ power : ℚ) ≤ digits * 10 ^ exponent := by
  calc (10 ^ power : ℚ)
      ≤ 10 ^ (count + exponent) := zpow_le_zpow_right₀ (by norm_num) hp
    _ = (10 ^ count : Nat) * 10 ^ exponent := by
      rw [zpow_add₀ (by norm_num), zpow_natCast]
      push_cast
      rfl
    _ ≤ digits * 10 ^ exponent := mul_le_mul_of_nonneg_right (by exact_mod_cast h) (by positivity)

theorem number_le {digits count : Nat} {exponent power : Int} (h : digits ≤ 10 ^ count)
    (hp : count + exponent ≤ power) : (digits * 10 ^ exponent : ℚ) ≤ 10 ^ power := by
  calc (digits * 10 ^ exponent : ℚ)
      ≤ (10 ^ count : Nat) * 10 ^ exponent := mul_le_mul_of_nonneg_right (by exact_mod_cast h) (by positivity)
    _ = 10 ^ (count + exponent) := by
      rw [zpow_add₀ (by norm_num), zpow_natCast]
      push_cast
      rfl
    _ ≤ 10 ^ power := zpow_le_zpow_right₀ (by norm_num) hp

theorem cast_unitsOfOne_pos : (0 : ℚ) < unitsOfOne := by
  exact_mod_cast show 0 < unitsOfOne by decide +kernel

/-- What rounds to a place other than zero is half a unit at least. -/
theorem RoundsTo.one_le (h : RoundsTo x place) (hpos : 0 < place) : 1 ≤ 2 * x := by
  have hplace : (place : ℚ) ≤ unitsAt place := by exact_mod_cast unitsAt_strictMono.le_apply
  have hone : (1 : ℚ) ≤ place := by exact_mod_cast hpos
  have hbelow : (0 : ℚ) ≤ unitsAt (place - 1) := Nat.cast_nonneg _
  linarith [h.low]

theorem RoundsTo.lt_infinity (h : RoundsTo x place) (hplace : place < infinityPlace) :
    x < unitsAt infinityPlace := by
  have hlt : (unitsAt place : ℚ) < unitsAt infinityPlace := by exact_mod_cast unitsAt_strictMono hplace
  have hle : (unitsAt (place + 1) : ℚ) ≤ unitsAt infinityPlace := by
    exact_mod_cast unitsAt_strictMono.monotone hplace
  linarith [h.high]

/-- A decimal below infinity has no more digits before its point than `placeOfDecimal` looks at. -/
theorem power_le_of_lt_infinity {digits : Nat} {exponent : Int} (hdigits : digits ≠ 0)
    (h : (digits * 10 ^ exponent * unitsOfOne : ℚ) < unitsAt infinityPlace) :
    exponent + (Nat.toDigits 10 digits).length ≤ 310 := by
  by_contra hlt
  have hle := le_number (le_digits hdigits)
    (show 310 ≤ ((Nat.toDigits 10 digits).length - 1 : Nat) + exponent by omega)
  have hinfinity : (unitsAt infinityPlace : ℚ) ≤ 10 ^ (310 : Int) * unitsOfOne := by
    exact_mod_cast show unitsAt infinityPlace ≤ 10 ^ 310 * unitsOfOne by decide +kernel
  have hx := mul_le_mul_of_nonneg_right hle cast_unitsOfOne_pos.le
  linarith

/-- A decimal of half a unit has no more zeros behind its point than `placeOfDecimal` looks at. -/
theorem le_power_of_one_le {digits : Nat} {exponent : Int}
    (h : (1 : ℚ) ≤ 2 * (digits * 10 ^ exponent * unitsOfOne)) :
    -330 ≤ exponent + (Nat.toDigits 10 digits).length := by
  by_contra hlt
  have hle := number_le (digits_lt digits).le
    (show ((Nat.toDigits 10 digits).length : Int) + exponent ≤ -331 by omega)
  have hhalf : (2 * (10 ^ (-331 : Int) * unitsOfOne) : ℚ) < 1 := by
    have hnat : (2 * unitsOfOne : ℚ) < 10 ^ 331 := by
      exact_mod_cast show 2 * unitsOfOne < 10 ^ 331 by decide +kernel
    rw [zpow_neg, ← mul_assoc, mul_comm (2 : ℚ), mul_assoc, inv_mul_lt_iff₀ (by positivity), mul_one]
    exact_mod_cast hnat
  have hx := mul_le_mul_of_nonneg_right hle cast_unitsOfOne_pos.le
  linarith

/-- The place of a decimal is the one that its number of units rounds to, unless that is zero or infinity. -/
theorem placeOfDecimal_eq {digits : Nat} {exponent : Int} (hpos : 0 < place) (hplace : place < infinityPlace)
    (h : RoundsTo (digits * 10 ^ exponent * unitsOfOne) place) : placeOfDecimal digits exponent = place := by
  have hdigits : digits ≠ 0 := by
    rintro rfl
    have hhalf := h.one_le hpos
    norm_num at hhalf
  have hlarge := power_le_of_lt_infinity hdigits (h.lt_infinity hplace)
  have hsmall := le_power_of_one_le (h.one_le hpos)
  unfold placeOfDecimal
  simp only [if_neg hdigits, if_neg hlarge.not_gt, if_neg hsmall.not_gt]
  split_ifs with hexponent
  · obtain ⟨e, rfl⟩ := Int.eq_ofNat_of_zero_le hexponent
    refine nearestPlace_eq Nat.one_pos hplace.le (h.of_eq ?_)
    simp
  · obtain ⟨e, rfl⟩ : ∃ e : Nat, exponent = -e := ⟨exponent.natAbs, by omega⟩
    refine nearestPlace_eq (Nat.pow_pos (by decide)) hplace.le (h.of_eq ?_)
    show ((digits * unitsOfOne : Nat) / (Nat.pow 10 (- -(e : Int)).toNat : Nat) : ℚ) = _
    rw [neg_neg, Int.toNat_natCast, Nat.pow_eq, zpow_neg, zpow_natCast]
    push_cast
    ring

end Value
end Campaign
