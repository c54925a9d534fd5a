/-!
# Integers in text

Integers that fit in 64 bits with a sign, and their decimal text: a sign or none, and digits.
-/

namespace Campaign.Text

def leastInteger : Int := -9223372036854775808

def greatestInteger : Int := 9223372036854775807

/-- `n` if it fits in 64 bits with a sign. -/
def fitting? (n : Int) : Option Int :=
  if leastInteger ≤ n ∧ n ≤ greatestInteger then some n else none

/-- Takes a leading `+` or `-`; the sign is negative only for `-`. -/
def splitSign : List Char → Bool × List Char
  | '-' :: s => (true, s)
  | '+' :: s => (false, s)
  | s => (false, s)

/-- The number of some decimal digits, with a sign. -/
def signed (negative : Bool) (digits : List Char) : Int :=
  let n : Int := Nat.ofDigitChars 10 digits 0
  if negative then -n else n

/-- The integer that a text writes. -/
def integer? (s : List Char) : Option Int :=
  let (negative, digits) := splitSign s
  if digits ≠ [] ∧ digits.all Char.isDigit then fitting? (signed negative digits) else none

end Campaign.Text
