/-!
# Measured values

A measured value is a 64-bit binary floating-point number, kept as its bits. Two values are equal
when their bits are, so a NaN equals itself and the two zeros differ.

The bits below the sign, read as a number, are the *place* of the magnitude among all magnitudes:
it grows with the magnitude and is the same for no two of them. Every finite magnitude is a whole
number of units of 2^-1074, the least positive magnitude.
-/

namespace Campaign

/-- A binary floating-point number of 64 bits. -/
structure Value where
  bits : UInt64
deriving DecidableEq, Repr, Inhabited

namespace Value

/-- The weight of the sign among the bits. -/
def signWeight : Nat := 0x8000000000000000

/-- Whether the sign bit is set. -/
def negative (v : Value) : Bool :=
  signWeight ≤ v.bits.toNat

/-- The place of the magnitude among all magnitudes. -/
def place (v : Value) : Nat :=
  v.bits.toNat % signWeight

/-- The number of places over which the step from one magnitude to the next stays the same. -/
def octave : Nat := 0x10000000000000

/-- The place of infinity. The places above it are not numbers. -/
def infinityPlace : Nat :=
  2047 * octave

/-- The value of a given sign and place. -/
def ofPlace (negative : Bool) (place : Nat) : Value :=
  ⟨UInt64.ofNat (place + if negative then signWeight else 0)⟩

/-- Whether `v` is not a number. -/
def isNaN (v : Value) : Bool :=
  infinityPlace < v.place

/-- Whether `v` is a number and no infinity. -/
def isFinite (v : Value) : Bool :=
  v.place < infinityPlace

/-- The magnitude at a place, in units of 2^-1074. In the first two octaves the units are counted
one by one; from there each further octave doubles the step. -/
def unitsAt (place : Nat) : Nat :=
  if place < octave then place
  else (octave + place % octave) <<< (place / octave - 1)

/-- The number of units in one. -/
def unitsOfOne : Nat := 1 <<< 1074

/-- The magnitude in units of 2^-1074; for an infinity, the magnitude that would come next. -/
def units (v : Value) : Nat :=
  unitsAt v.place

/-- The value that stands for "not a number" where none was read. -/
def nan : Value := ⟨0x7FF8000000000000⟩

def infinity : Value := ⟨0x7FF0000000000000⟩

/-- The value with the sign turned. -/
def negate (v : Value) : Value :=
  ⟨v.bits ^^^ 0x8000000000000000⟩

/-- The place with the sign of the value: numbers compare as their ranks, and both zeros have
rank 0. -/
def rank (v : Value) : Int :=
  if v.negative then -(v.place : Int) else v.place

/-- The order of numbers. A NaN is below nothing and above nothing. -/
def le (v w : Value) : Bool :=
  !v.isNaN && !w.isNaN && v.rank ≤ w.rank

/-- The strict order of numbers. -/
def lt (v w : Value) : Bool :=
  !v.isNaN && !w.isNaN && v.rank < w.rank

/-- The number itself, for arithmetic. -/
def toFloat (v : Value) : Float :=
  Float.ofBits v.bits

/-- The value of a number that arithmetic gave. -/
def ofFloat (x : Float) : Value :=
  ⟨x.toBits⟩

end Value
end Campaign
