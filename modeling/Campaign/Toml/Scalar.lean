import Campaign.Toml
import Campaign.Value.Numeral

/-!
# Numbers, truth values and moments

The values of a document that are written without quotes or brackets. Each is a word of letters,
digits and a few marks; a date and a time may stand apart by a blank.
-/

namespace Campaign.Toml

/-- The characters of an unquoted value. -/
def isScalarChar (c : Char) : Bool :=
  c.isAlphanum || c == '+' || c == '-' || c == '_' || c == '.' || c == ':'

/-- The digits of a number, in which `_` may stand between two digits. -/
def plainDigits? (isDigit : Char → Bool) : List Char → Option (List Char)
  | [] => none
  | [d] => if isDigit d then some [d] else none
  | d :: '_' :: rest => if isDigit d then (plainDigits? isDigit rest).map (d :: ·) else none
  | d :: rest => if isDigit d then (plainDigits? isDigit rest).map (d :: ·) else none

/-- Decimal digits that do not start with a needless zero. -/
def wholeDigits? (s : List Char) : Option (List Char) := do
  let digits ← plainDigits? Char.isDigit s
  if digits.head? = some '0' ∧ digits.length ≠ 1 then none else some digits

def isHexDigit (c : Char) : Bool :=
  c.isDigit || ('a' ≤ c && c ≤ 'f') || ('A' ≤ c && c ≤ 'F')

def hexDigitNumber (c : Char) : Nat :=
  if c.isDigit then c.toNat - 48 else if c.toNat < 97 then c.toNat - 55 else c.toNat - 87

/-- The number of some digits in a base up to 16. -/
def numberInBase (base : Nat) (digits : List Char) : Nat :=
  digits.foldl (fun n d => base * n + hexDigitNumber d) 0

/-- The number of an unsigned integer in a base with a mark of its own. -/
def markedInteger? (base : Nat) (isDigit : Char → Bool) (s : List Char) : Option Int :=
  (plainDigits? isDigit s).map fun digits => (numberInBase base digits : Int)

/-- The number of an integer. It must fit in 64 bits with a sign. -/
def integer? (s : List Char) : Option Int := do
  let n ← match s with
    | '0' :: 'x' :: digits => markedInteger? 16 isHexDigit digits
    | '0' :: 'o' :: digits => markedInteger? 8 (fun c => '0' ≤ c && c ≤ '7') digits
    | '0' :: 'b' :: digits => markedInteger? 2 (fun c => c == '0' || c == '1') digits
    | s =>
      let (negative, s) := Text.splitSign s
      (wholeDigits? s).map (Text.signed negative)
  Text.fitting? n

/-- An exponent: a sign or none, and digits. -/
def isExponent (s : List Char) : Bool :=
  (plainDigits? Char.isDigit (Text.splitSign s).2).isSome

/-- What may follow the whole digits of a number that is no integer. -/
def isFractionOrExponent (s : List Char) : Bool :=
  match s with
  | '.' :: rest =>
    let digits := rest.takeWhile fun c => c != 'e' && c != 'E'
    (plainDigits? Char.isDigit digits).isSome &&
      match rest.dropWhile fun c => c != 'e' && c != 'E' with
      | [] => true
      | _ :: exponent => isExponent exponent
  | c :: exponent => (c == 'e' || c == 'E') && isExponent exponent
  | [] => false

/-- Whether a text is a number with a fraction or an exponent, or names an infinity or no number. A
number that would round to infinity is none. -/
def isReal (s : List Char) : Bool :=
  let (_, magnitude) := Text.splitSign s
  if magnitude = "inf".toList ∨ magnitude = "nan".toList then true
  else
    let inWhole (c : Char) := c.isDigit || c == '_'
    (wholeDigits? (magnitude.takeWhile inWhole)).isSome
      && isFractionOrExponent (magnitude.dropWhile inWhole)
      && (Value.ofNumeral? (s.filter (· != '_'))) != some .infinity

/-- The number of exactly `count` digits. -/
def fixedDigits? (count : Nat) (s : List Char) : Option Nat :=
  if s.length = count ∧ s.all Char.isDigit then some (Nat.ofDigitChars 10 s 0) else none

def isLeapYear (year : Nat) : Bool :=
  year % 4 == 0 && (year % 100 != 0 || year % 400 == 0)

def daysInMonth (year month : Nat) : Nat :=
  if month = 2 then (if isLeapYear year then 29 else 28)
  else if month = 4 ∨ month = 6 ∨ month = 9 ∨ month = 11 then 30
  else 31

/-- Whether a text is a date, `YYYY-MM-DD`. -/
def isDate (s : List Char) : Bool :=
  match fixedDigits? 4 (s.take 4), (s.drop 4).take 1, fixedDigits? 2 ((s.drop 5).take 2),
      (s.drop 7).take 1, fixedDigits? 2 (s.drop 8) with
  | some year, ['-'], some month, ['-'], some day =>
    1 ≤ month && month ≤ 12 && 1 ≤ day && day ≤ daysInMonth year month
  | _, _, _, _, _ => false

/-- Whether a text is hours and minutes, `HH:MM`. -/
def isHourMinute (s : List Char) : Bool :=
  match fixedDigits? 2 (s.take 2), (s.drop 2).take 1, fixedDigits? 2 (s.drop 3) with
  | some hour, [':'], some minute => hour ≤ 23 && minute ≤ 59
  | _, _, _ => false

/-- Whether a text is a time, `HH:MM:SS`, perhaps with a fraction of a second. -/
def isTime (s : List Char) : Bool :=
  isHourMinute (s.take 5) &&
    match (s.drop 5).take 1, fixedDigits? 2 ((s.drop 6).take 2), s.drop 8 with
    | [':'], some second, fraction =>
      second ≤ 60 &&
        match fraction with
        | [] => true
        | '.' :: digits => !digits.isEmpty && digits.all Char.isDigit
        | _ => false
    | _, _, _ => false

/-- Whether a text is a time, perhaps with its distance from universal time. -/
def isTimeWithZone (s : List Char) : Bool :=
  let isTimeChar (c : Char) := c.isDigit || c == ':' || c == '.'
  isTime (s.takeWhile isTimeChar) &&
    match s.dropWhile isTimeChar with
    | [] => true
    | [zone] => zone == 'Z' || zone == 'z'
    | sign :: distance => (sign == '+' || sign == '-') && isHourMinute distance

/-- Whether a text is a date and a time. -/
def isDateTime (s : List Char) : Bool :=
  isDate (s.take 10) &&
    match s.drop 10 with
    | mark :: time => (mark == 'T' || mark == 't' || mark == ' ') && isTimeWithZone time
    | [] => false

/-- The item that an unquoted text writes. -/
def scalar? (s : List Char) : Option Item :=
  if s = "true".toList ∨ s = "false".toList then some .plain
  else if isDate s || isDateTime s || isTime s then some .moment
  else if (integer? s).isSome || isReal s then some .plain
  else none

/-- Reads an unquoted value. After a date, a blank and the two digits and colon of a time belong to
it. -/
def takeScalar? (s : List Char) : Option (Item × List Char) :=
  let word := s.takeWhile isScalarChar
  let rest := s.dropWhile isScalarChar
  match isDate word, rest with
  | true, ' ' :: a :: b :: ':' :: more =>
    if a.isDigit && b.isDigit then
      let time := a :: b :: ':' :: more.takeWhile isScalarChar
      (scalar? (word ++ ' ' :: time)).map fun item => (item, more.dropWhile isScalarChar)
    else (scalar? word).map fun item => (item, rest)
  | _, _ => (scalar? word).map fun item => (item, rest)

end Campaign.Toml
