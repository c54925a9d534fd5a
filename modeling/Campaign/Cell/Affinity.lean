import Campaign.Cell
import Campaign.Text.Blank
import Campaign.Text.Integer
import Campaign.Value.Numeral

/-!
# Affinities

What a column makes of the cells written into it, by its declared type: texts that write numbers
become numbers, or numbers become texts.
-/

namespace Campaign

/-- What a column makes of a cell. -/
inductive Affinity where
  /-- It stays as it is. -/
  | none
  /-- A number becomes a text. -/
  | text
  /-- A text that writes a number becomes one, an integer where it can. -/
  | numeric
  /-- A text that writes a number becomes a real number, and so does an integer. -/
  | real
deriving DecidableEq, Repr

namespace Cell

/-- The blanks around a number in a text. -/
def isBlankAround (c : Char) : Bool :=
  c == ' ' || ('\t' ≤ c && c ≤ '\r')

/-- The real number of an integer. -/
def realOfInteger (n : Int) : Value :=
  .ofPlace (n < 0) (Value.nearestPlace (n.natAbs * Value.unitsOfOne) 1)

/-- A real number as a cell: an integer, if it is one and is not at the ends of the integers. -/
def integerIfWhole (v : Value) : Cell :=
  let whole := unitsOfReal v / (Value.unitsOfOne : Int)
  if v.isFinite && unitsOfInteger whole == unitsOfReal v && Text.leastInteger < whole
      && whole < Text.greatestInteger then
    integer whole
  else real v

/-- The number that a text without blanks around it writes. -/
def ofDigits? (s : List Char) : Option Cell :=
  match Text.integer? s with
  | some n => some (integer n)
  | Option.none =>
    let (negative, magnitude) := Text.splitSign s
    (Value.decimalPlace? magnitude).map fun place => real (.ofPlace negative place)

/-- The number that a text writes, with blanks around it or without. -/
def ofNumber? (s : String) : Option Cell :=
  ofDigits? (Text.dropAround isBlankAround s.toList)

/-- How many digits after the first a real number is written with. -/
def placesOfText : Nat := 14

/-- Ten to the power `n`, or one if `n` is negative. -/
def tenTo (n : Int) : Nat :=
  Nat.pow 10 n.toNat

/-- The power of ten of the first digit of a magnitude that is not zero. -/
def firstPower (v : Value) : Int :=
  let whole := v.units / Value.unitsOfOne
  let power : Int :=
    if whole ≠ 0 then (Nat.toDigits 10 whole).length - 1
    else 1 - (Nat.toDigits 10 (Value.unitsOfOne / v.units)).length
  if Value.unitsOfOne * tenTo power ≤ v.units * tenTo (-power) then power else power - 1

/-- The digits of a magnitude that is not zero, `placesOfText` of them behind the first, and the
power of ten of the first. -/
def scientificDigits (v : Value) : Nat × Int :=
  let power := firstPower v
  let shift := (placesOfText : Int) - power
  let digits := roundHalfEven (v.units * tenTo shift) (Value.unitsOfOne * tenTo (-shift))
  if digits < tenTo (placesOfText + 1) then (digits, power) else (digits / 10, power + 1)

/-- The digits before and behind a point, without zeros at the end but with a digit on either side.
-/
def pointed (digits : List Char) (whole : Nat) : List Char :=
  let fraction := Text.dropEndWhile (· == '0') (digits.drop whole)
  digits.take whole ++ ['.'] ++ if fraction.isEmpty then ['0'] else fraction

/-- A magnitude in text: positional from 10^-4 up to but not including 10^15, else with an exponent
of two digits or more. -/
def magnitudeText (v : Value) : List Char :=
  if v.units = 0 then ['0', '.', '0']
  else
    let (n, power) := scientificDigits v
    let digits := Nat.toDigits 10 n
    if power < -4 ∨ (placesOfText : Int) < power then
      let exponent := Nat.toDigits 10 power.natAbs
      pointed digits 1 ++ ['e', if power < 0 then '-' else '+']
        ++ List.replicate (2 - exponent.length) '0' ++ exponent
    else if power < 0 then
      pointed (List.replicate (-power).toNat '0' ++ digits) 1
    else pointed digits (power.toNat + 1)

/-- A real number in text. -/
def realText (v : Value) : String :=
  let sign := if v.negative && v.units ≠ 0 then ['-'] else []
  String.ofList (sign ++ if v.isFinite then magnitudeText v else "Inf".toList)

end Cell

namespace Affinity

/-- A text as the number it writes, or the text itself. -/
def numberOr (s : String) : Cell :=
  match Cell.ofNumber? s with
  | some c => c
  | Option.none => .text s

/-- What a column of an affinity makes of a cell. -/
def apply : Affinity → Cell → Cell
  | text, .integer n => .text (toString n)
  | text, .real v => .text (Cell.realText v)
  | numeric, .real v => Cell.integerIfWhole v
  | numeric, .text s =>
    match numberOr s with
    | .real v => Cell.integerIfWhole v
    | c => c
  | real, .integer n => .real (Cell.realOfInteger n)
  | real, .text s =>
    match numberOr s with
    | .integer n => .real (Cell.realOfInteger n)
    | c => c
  | _, c => c

/-- The affinity of a declared type, in lower case. A type with `int` in its name keeps integers,
one with `char`, `clob` or `text` keeps texts, one with `blob` and the empty one keep everything as
it is, one with `real`, `floa` or `doub` keeps real numbers, and any other keeps numbers. The first
of these that applies counts. -/
def ofType (type : List Char) : Affinity :=
  let has (part : String) := Text.occursIn part.toList type
  if has "int" then numeric
  else if has "char" || has "clob" || has "text" then text
  else if has "blob" || type.isEmpty then none
  else if has "real" || has "floa" || has "doub" then real
  else numeric

end Affinity
end Campaign
