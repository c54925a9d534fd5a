/-!
# Columns of text

Texts brought to a width with blanks, and texts behind a margin. Widths count characters.
-/

namespace Campaign.Text

/-- Blanks up to `width` characters after `s`. -/
def padEnd (width : Nat) (s : String) : String :=
  s ++ String.ofList (List.replicate (width - s.length) ' ')

/-- Blanks up to `width` characters before `s`. -/
def padStart (width : Nat) (s : String) : String :=
  String.ofList (List.replicate (width - s.length) ' ') ++ s

/-- `times` copies of the character `c`. -/
def repeated (c : Char) (times : Nat) : String :=
  String.ofList (List.replicate times c)

/-- `s` with `margin` before each of its lines. A line feed at the end of `s` begins a line too. -/
def indented (margin s : String) : String :=
  margin ++ String.ofList (s.toList.flatMap fun c => if c = '\n' then c :: margin.toList else [c])

end Campaign.Text
