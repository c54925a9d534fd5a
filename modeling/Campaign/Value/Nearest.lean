import Campaign.Value

/-!
# The nearest value

A quotient of natural numbers rounded to the nearest value. Of two values equally near, the one at
the even place is taken, and magnitudes beyond the greatest finite one round as if the next value
were infinity.
-/

namespace Campaign

/-- `n / d` rounded to the nearest natural number, a half to the even one. -/
def roundHalfEven (n d : Nat) : Nat :=
  let q := n / d
  let twice := 2 * (n % d)
  if d < twice || (twice == d && q % 2 == 1) then q + 1 else q

namespace Value

/-- How often the step between values has doubled where the magnitude has `whole` whole units. -/
def doublings (whole : Nat) : Nat :=
  whole.log2 - 52

/-- The place of the magnitude nearest to `n / d` units. -/
def nearestPlace (n d : Nat) : Nat :=
  let k := doublings (n / d)
  min infinityPlace (roundHalfEven n (d <<< k) + k * octave)

/-- The place of the magnitude nearest to `digits` times ten to the power `exponent`. The first two
bounds only keep the numbers small: beyond them the magnitude is above every finite one, or below
half of the least. -/
def placeOfDecimal (digits : Nat) (exponent : Int) : Nat :=
  let length := (Nat.toDigits 10 digits).length
  if digits = 0 then 0
  else if 310 < exponent + length then infinityPlace
  else if exponent + length < -330 then 0
  else if 0 ≤ exponent then nearestPlace (digits * Nat.pow 10 exponent.toNat * unitsOfOne) 1
  else nearestPlace (digits * unitsOfOne) (Nat.pow 10 (-exponent).toNat)

end Value
end Campaign
