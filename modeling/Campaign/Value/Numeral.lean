import Campaign.Text.Integer
import Campaign.Value.Nearest

/-!
# Numerals

The numerals of a log: an optional sign, then `inf`, `infinity` or `nan` in any case, or digits with
an optional point and an optional exponent. A numeral reads as the value nearest to the number it
writes.
-/

namespace Campaign

namespace Value

/-- The exponent that closes a numeral: nothing, or `e`, an optional sign and digits. -/
def exponent? : List Char → Option Int
  | [] => some 0
  | c :: s =>
    let (negative, digits) := Text.splitSign s
    if (c = 'e' ∨ c = 'E') ∧ digits ≠ [] ∧ digits.all Char.isDigit then
      some (Text.signed negative digits)
    else none

/-- Splits off the digits after a point, if a point comes first. -/
def splitFraction : List Char → List Char × List Char
  | '.' :: s => (s.takeWhile Char.isDigit, s.dropWhile Char.isDigit)
  | s => ([], s)

/-- The place that a numeral of digits writes. -/
def decimalPlace? (s : List Char) : Option Nat :=
  let whole := s.takeWhile Char.isDigit
  let (fraction, rest) := splitFraction (s.dropWhile Char.isDigit)
  if whole = [] ∧ fraction = [] then none
  else (exponent? rest).map fun e =>
    placeOfDecimal (Nat.ofDigitChars 10 (whole ++ fraction) 0) (e - fraction.length)

/-- The place that an unsigned numeral writes. -/
def magnitude? (s : List Char) : Option Nat :=
  match decimalPlace? s with
  | some place => some place
  | none =>
    let name := String.ofList (s.map Char.toLower)
    if name = "inf" ∨ name = "infinity" then some infinityPlace
    else if name = "nan" then some nan.place
    else none

/-- The value of a numeral; `none` for any other text. -/
def ofNumeral? (s : List Char) : Option Value :=
  let (negative, magnitude) := Text.splitSign s
  (magnitude? magnitude).map (ofPlace negative)

end Value
end Campaign
