import Campaign.Value.Shortest

/-!
# Numbers in JSON

A finite value is written with the fewest digits that read back as it. Magnitudes from 10^-5 up to
but not including 10^16, and zero, are written with a point and no exponent; all others in
scientific notation. A value that is not finite is `null`.
-/

namespace Campaign.Export

/-- The most digits that stand before the point without an exponent. -/
def mostWholeDigits : Int := 16

/-- The most zeros that stand between the point and the first other digit without an exponent. -/
def mostLeadingZeros : Int := 4

def zeros (count : Nat) : List Char :=
  List.replicate count '0'

/-- Some digits with the point after `whole` of them, filled up with zeros so that there is a digit
on either side of it. -/
def positional (digits : List Char) (whole : Int) : List Char :=
  if whole ≤ 0 then ['0', '.'] ++ zeros (-whole).toNat ++ digits
  else if digits.length ≤ whole then
    digits ++ zeros (whole.toNat - digits.length) ++ ['.', '0']
  else digits.take whole.toNat ++ ['.'] ++ digits.drop whole.toNat

/-- Some digits with the point after the first, and an exponent with its sign. A single digit has no
point after it. -/
def scientific (digits : List Char) (exponent : Int) : List Char :=
  let mantissa := match digits with
    | [] => []
    | [d] => [d]
    | d :: rest => d :: '.' :: rest
  let sign := if exponent < 0 then '-' else '+'
  mantissa ++ ['e', sign] ++ Nat.toDigits 10 exponent.natAbs

/-- A decimal as a JSON number. -/
def decimal (d : Decimal) : List Char :=
  let digits := Nat.toDigits 10 d.digits
  let whole := d.exponent + digits.length
  if d.digits = 0 then ['0', '.', '0']
  else if -mostLeadingZeros ≤ whole ∧ whole ≤ mostWholeDigits then positional digits whole
  else scientific digits (whole - 1)

/-- A value as JSON. -/
def value (v : Value) : List Char :=
  if v.isFinite then (if v.negative then ['-'] else []) ++ decimal v.shortest
  else "null".toList

end Campaign.Export
