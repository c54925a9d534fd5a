import Campaign.Cell.Affinity
import Campaign.Text.Utf8

/-!
# Cells as operands

What a cell counts as where a text, a number or a truth value is asked for. A text counts as the
number that it starts with; where an integer is asked for, only as the digits that it starts with.
-/

namespace Campaign.Cell

/-- The text of a cell; nothing if it is absent. -/
def text? : Cell → Option (List Char)
  | absent => none
  | integer n => some (toString n).toList
  | real v => some (realText v).toList
  | text s => some s.toList
  | blob bytes => some (Text.ofUtf8Lenient bytes)

/-- The number that a text starts with, 0 if there is none. -/
def leadingNumber (s : List Char) : Cell :=
  let s := s.dropWhile isBlankAround
  let lengths := (List.range (s.length + 1)).reverse
  (lengths.findSome? fun length => ofDigits? (s.take length)).getD (integer 0)

/-- The number of a cell; an absent one stays absent. -/
def number : Cell → Cell
  | text s => leadingNumber s.toList
  | blob bytes => leadingNumber (Text.ofUtf8Lenient bytes)
  | c => c

/-- `n` brought into the integers by turning round at their ends. -/
def wrapped (n : Int) : Int :=
  let range := Text.greatestInteger - Text.leastInteger + 1
  (n - Text.leastInteger) % range + Text.leastInteger

/-- `n`, or the integer nearest to it. -/
def bounded (n : Int) : Int :=
  max Text.leastInteger (min Text.greatestInteger n)

/-- The whole part of a real number. -/
def wholePart (v : Value) : Int :=
  if v.isNaN then 0 else bounded (Int.tdiv (unitsOfReal v) Value.unitsOfOne)

/-- The integer that a text starts with, 0 if there is none. -/
def leadingInteger (s : List Char) : Int :=
  let (negative, rest) := Text.splitSign (s.dropWhile isBlankAround)
  bounded (Text.signed negative (rest.takeWhile Char.isDigit))

/-- The integer of a cell; nothing if it is absent. -/
def integer? : Cell → Option Int
  | absent => none
  | integer n => some n
  | real v => some (wholePart v)
  | text s => some (leadingInteger s.toList)
  | blob bytes => some (leadingInteger (Text.ofUtf8Lenient bytes))

/-- The real number of a cell; nothing if it is absent. -/
def real? (c : Cell) : Option Value :=
  match c.number with
  | integer n => some (realOfInteger n)
  | real v => some v
  | _ => none

/-- Whether a cell counts as true; an absent one counts as neither. -/
def truth? (c : Cell) : Option Bool :=
  match c.number with
  | integer n => some (n ≠ 0)
  | real v => some (unitsOfReal v ≠ 0)
  | _ => none

/-- The cell of a truth value. -/
def ofTruth : Option Bool → Cell
  | none => absent
  | some b => integer (if b then 1 else 0)

/-- A real number as a cell. What is no number is absent. -/
def ofReal (v : Value) : Cell :=
  if v.isNaN then absent else real v

/-- An integer as a cell: a real number where it does not fit. -/
def ofInteger (n : Int) : Cell :=
  match Text.fitting? n with
  | some n => integer n
  | none => real (realOfInteger n)

def ofText (s : List Char) : Cell :=
  text (String.ofList s)

/-- The bytes of a cell; nothing if it is absent. -/
def bytes? : Cell → Option (List UInt8)
  | blob bytes => some bytes
  | c => c.text?.map fun s => Text.toUtf8 (String.ofList s)

/-- The name of a cell's kind in an expression. -/
def kindName : Cell → String
  | absent => "null"
  | integer _ => "integer"
  | real _ => "real"
  | text _ => "text"
  | blob _ => "blob"

end Campaign.Cell
