import Campaign.Sample

/-!
# Summaries

Count, mean, standard deviation and extremes of one metric over the attempts that have a number for
it. Sums run from left to right, and start at -0 so that a sum of negative zeros keeps its sign.
-/

namespace Campaign

/-- A metric over the attempts of a trial. -/
structure Summary where
  count : Nat
  mean : Value
  deviation : Value
  least : Value
  greatest : Value
deriving DecidableEq, Repr

namespace Summary

/-- The sum of numbers, from left to right. -/
def total (xs : List Float) : Float :=
  xs.foldl (· + ·) (-0.0)

/-- The mean of numbers. -/
def average (xs : List Float) : Float :=
  total xs / Float.ofNat xs.length

/-- The square root of the mean squared distance from the mean. -/
def spread (xs : List Float) : Float :=
  let mean := average xs
  (average (xs.map fun x => (x - mean) * (x - mean))).sqrt

/-- The lesser number; the second if neither is less. -/
def lesser (v w : Value) : Value :=
  if v.lt w then v else w

/-- The greater number; the second if neither is greater. -/
def greater (v w : Value) : Value :=
  if w.lt v then v else w

/-- The summary of values that are all numbers, if there are any. -/
def ofNumbers? (values : List Value) : Option Summary :=
  if values.isEmpty then none
  else
    let xs := values.map Value.toFloat
    some {
      count := values.length
      mean := .ofFloat (average xs)
      deviation := .ofFloat (spread xs)
      least := values.foldl lesser .infinity
      greatest := values.foldl greater (.negate .infinity) }

end Summary

/-- The summary of one metric over the attempts that have a number for it, if any has. -/
def Matrix.summary? (m : Matrix) (metric : Metric) : Option Summary :=
  Summary.ofNumbers? ((m.column metric).filter fun v => !v.isNaN)

end Campaign
