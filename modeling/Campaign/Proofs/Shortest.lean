import Mathlib
import Campaign.Proofs.Nearest
import Campaign.Value.Shortest

/-!
# Shortest decimals read back

Whichever grid the search for a short decimal ends on, and also where it ends on none, the number of the
decimal rounds to the place that it was sought for (`roundsTo_shortest`).
-/

namespace Campaign

/-- The number that a decimal stands for. -/
def Decimal.number (d : Decimal) : ℚ :=
  d.digits * 10 ^ d.exponent

theorem Decimal.number_trimZeros (count : Nat) (d : Decimal) : (d.trimZeros count).number = d.number := by
  induction count generalizing d with
  | zero => rfl
  | succ count ih =>
    rw [trimZeros]
    split_ifs with h
    · obtain ⟨digits, hdigits⟩ := Nat.dvd_of_mod_eq_zero h.2
      rw [ih, number, number, hdigits, Nat.mul_div_cancel_left _ (by decide), zpow_add_one₀ (by norm_num)]
      push_cast
      ring
    · rfl

namespace Value
variable {place grains step digits : Nat} {v : Value}

/-- The test of the search compares with the midpoints to the neighbouring magnitudes. -/
theorem roundsTo_of_readsBack (h : readsBack place grains = true) :
    RoundsTo (grains / 10 ^ grainPower) place := by
  have hgrain : (0 : ℚ) < 10 ^ grainPower := by positivity
  have hexact : ((2 * grains : Nat) : ℚ) = 2 * (grains / 10 ^ grainPower) * 10 ^ grainPower := by
    rw [mul_assoc, div_mul_cancel₀ _ hgrain.ne']
    push_cast
    rfl
  have hmidpoint (p q : Nat) :
      ((grainsAt p + grainsAt q : Nat) : ℚ) = (unitsAt p + unitsAt q) * 10 ^ grainPower := by
    simp only [grainsAt, Nat.pow_eq]
    push_cast
    ring
  unfold readsBack at h
  dsimp only at h
  split_ifs at h with heven
  · rw [Bool.and_eq_true, decide_eq_true_eq, decide_eq_true_eq, ← Nat.cast_le (α := ℚ), ← Nat.cast_le (α := ℚ),
      hexact, hmidpoint, hmidpoint] at h
    exact ⟨le_of_mul_le_mul_right h.1 hgrain, le_of_mul_le_mul_right h.2 hgrain, fun _ => heven⟩
  · rw [Bool.and_eq_true, decide_eq_true_eq, decide_eq_true_eq, ← Nat.cast_lt (α := ℚ), ← Nat.cast_lt (α := ℚ),
      hexact, hmidpoint, hmidpoint] at h
    have hlow := lt_of_mul_lt_mul_right h.1 hgrain.le
    have hhigh := lt_of_mul_lt_mul_right h.2 hgrain.le
    exact ⟨hlow.le, hhigh.le, fun htie => (htie.elim hlow.ne' hhigh.ne).elim⟩

theorem readsBack_of_onGrid? (h : onGrid? place step = some digits) :
    readsBack place (digits * step) = true := by
  unfold onGrid? at h
  dsimp only at h
  split_ifs at h with hbelow habove
  · obtain rfl := Option.some.inj h
    rw [Bool.and_eq_true] at hbelow
    exact hbelow.1
  · obtain rfl := Option.some.inj h
    exact habove

/-- The decimal that the search falls back on is exact, here for any least magnitude 2^-n. -/
theorem number_exact (units n : Nat) :
    (Decimal.mk (units * Nat.pow 5 n) (-n)).number * (1 <<< n : Nat) = units := by
  have htens : (5 ^ n * (10 ^ (-n : Int) * 2 ^ n) : ℚ) = 1 := by
    rw [zpow_neg, zpow_natCast, mul_left_comm, ← mul_pow, inv_mul_eq_one₀ (by positivity)]
    norm_num
  calc (Decimal.mk (units * Nat.pow 5 n) (-n)).number * (1 <<< n : Nat)
      = units * (5 ^ n * (10 ^ (-n : Int) * 2 ^ n)) := by
        rw [Decimal.number, Nat.pow_eq, Nat.shiftLeft_eq]
        push_cast
        ring
    _ = units := by rw [htens, mul_one]

theorem number_onGrid (digits exponent : Nat) :
    (Decimal.mk digits (exponent - grainPower)).number * unitsOfOne
      = (digits * grainsOfStep exponent : Nat) / 10 ^ grainPower := by
  show _ = ((digits * (unitsOfOne * 10 ^ exponent) : Nat) / 10 ^ grainPower : ℚ)
  rw [Decimal.number, zpow_sub₀ (by norm_num), zpow_natCast, zpow_natCast]
  push_cast
  ring

theorem roundsTo_shortestFrom (hplace : 0 < place) (tries exponent : Nat) :
    RoundsTo ((shortestFrom place tries exponent).number * unitsOfOne) place := by
  induction tries generalizing exponent with
  | zero =>
    have hexponent : (-1074 : Int) = -(1074 : Nat) := rfl
    rw [shortestFrom, unitsOfOne, hexponent]
    generalize 1074 = n
    exact (roundsTo_unitsAt hplace).of_eq (number_exact _ n)
  | succ tries ih =>
    rw [shortestFrom]
    split
    next digits hdigits =>
      exact (roundsTo_of_readsBack (readsBack_of_onGrid? hdigits)).of_eq (number_onGrid digits exponent)
    next => exact ih _

/-- The shortest decimal of a finite value other than zero rounds to the place of the value. -/
theorem roundsTo_shortest (h : v.place ≠ 0) : RoundsTo (v.shortest.number * unitsOfOne) v.place := by
  rw [shortest, if_neg h, shortestAt, Decimal.number_trimZeros]
  exact roundsTo_shortestFrom (Nat.pos_of_ne_zero h) _ _

end Value
end Campaign
