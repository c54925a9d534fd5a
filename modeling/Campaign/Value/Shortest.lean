import Campaign.Value

/-!
# The fewest digits that read back

A decimal reads back as a finite value when it lies between the midpoints to the neighbouring
values; a midpoint itself reads back as the value at the even place. `Value.shortest` gives a
decimal with as few digits as any that reads back, and of those the nearest to the value.

All quantities are whole numbers of *grains* of 2^-1074 · 10^-342, small enough that no power of ten
below has a negative exponent.
-/

namespace Campaign

/-- A decimal `digits · 10^exponent`. -/
structure Decimal where
  digits : Nat
  exponent : Int
deriving DecidableEq, Repr

/-- `d` with up to `count` zeros at the end of its digits moved into the exponent. -/
def Decimal.trimZeros (count : Nat) (d : Decimal) : Decimal :=
  match count with
  | 0 => d
  | count + 1 =>
    if d.digits ≠ 0 ∧ d.digits % 10 = 0 then trimZeros count ⟨d.digits / 10, d.exponent + 1⟩ else d

namespace Value

/-- The powers of ten in a grain. -/
def grainPower : Nat := 342

/-- The magnitude at a place, in grains. -/
def grainsAt (place : Nat) : Nat :=
  unitsAt place * Nat.pow 10 grainPower

/-- The length of a step of ten to the power `exponent - grainPower`, in grains. -/
def grainsOfStep (exponent : Nat) : Nat :=
  unitsOfOne * Nat.pow 10 exponent

/-- Whether `grains` reads back as the magnitude at a positive place. -/
def readsBack (place grains : Nat) : Bool :=
  let low := grainsAt (place - 1) + grainsAt place
  let high := grainsAt place + grainsAt (place + 1)
  if place % 2 = 0 then low ≤ 2 * grains && 2 * grains ≤ high
  else low < 2 * grains && 2 * grains < high

/-- The multiple of `step` grains that reads back as the magnitude at `place`, if there is one, by
the number of its steps. Of two it is the nearer one, and the even one if they are equally near. -/
def onGrid? (place step : Nat) : Option Nat :=
  let exact := grainsAt place
  let below := exact / step
  let above := below + 1
  let belowIn := readsBack place (below * step)
  let aboveIn := readsBack place (above * step)
  let down := exact - below * step
  let up := above * step - exact
  if belowIn && (!aboveIn || down < up || (down == up && below % 2 == 0)) then some below
  else if aboveIn then some above
  else none

/-- Tries the grids from the coarsest on: `tries` of them, the first with steps of ten to the power
`exponent - grainPower`. If none has a decimal that reads back, the exact decimal is taken. -/
def shortestFrom (place : Nat) : (tries exponent : Nat) → Decimal
  | 0, _ => ⟨unitsAt place * Nat.pow 5 1074, -1074⟩
  | tries + 1, exponent =>
    match onGrid? place (grainsOfStep exponent) with
    | some digits => ⟨digits, (exponent : Int) - grainPower⟩
    | none => shortestFrom place tries (exponent - 1)

/-- The shortest decimal that reads back as the magnitude at a positive finite place. -/
def shortestAt (place : Nat) : Decimal :=
  let length := (Nat.toDigits 10 (grainsAt place / unitsOfOne)).length
  (shortestFrom place 17 (length - 1)).trimZeros 17

/-- The shortest decimal that reads back as the magnitude of `v`, if `v` is finite. -/
def shortest (v : Value) : Decimal :=
  if v.place = 0 then ⟨0, 0⟩ else shortestAt v.place

end Value
end Campaign
