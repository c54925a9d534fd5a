/-!
# Lines of a text

A line ends at a line feed, and a carriage return directly before that line feed belongs to the
ending. What follows the last line feed is a line if it is not empty.
-/

namespace Campaign.Text

/-- The line whose characters are collected in `line`, last first, without a closing `\r`. -/
def closeLine (line : List Char) : List Char :=
  match line with
  | '\r' :: rest => rest.reverse
  | _ => line.reverse

/-- The lines of `s`, when the characters in `line`, last first, stand directly before it. -/
def linesAfter (line : List Char) : List Char → List (List Char)
  | [] => if line.isEmpty then [] else [line.reverse]
  | c :: s => if c = '\n' then closeLine line :: linesAfter [] s else linesAfter (c :: line) s

/-- The lines of `s` in order, without their endings. -/
def lines (s : List Char) : List (List Char) :=
  linesAfter [] s

end Campaign.Text
