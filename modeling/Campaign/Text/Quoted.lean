import Campaign.Text.Unprintable

/-!
# Escapes

Text between double quotes, with escapes for the quote, the backslash and every character that would
not show; and text for a terminal, with escapes for the characters that would steer it.
-/

namespace Campaign.Text

/-- The escape of a character by its code point between braces. -/
def bracedEscape (c : Char) : List Char :=
  ['\\', 'u', '\x7b'] ++ Nat.toDigits 16 c.toNat ++ ['\x7d']

/-- The escape of a character, or the character itself. -/
def quotedChar (c : Char) : List Char :=
  match c with
  | '\x00' => ['\\', '0']
  | '\t' => ['\\', 't']
  | '\r' => ['\\', 'r']
  | '\n' => ['\\', 'n']
  | '"' => ['\\', '"']
  | '\\' => ['\\', '\\']
  | c => if isUnprintable c then bracedEscape c else [c]

/-- `s` between quotes. -/
def quoted (s : String) : String :=
  String.ofList (['"'] ++ s.toList.flatMap quotedChar ++ ['"'])

/-- The escape of a character that would steer a terminal, or the character itself: the bell, the
backspace, the form feed, the escape and the delete character steer it, and so do the controls above
them. -/
def unsteeringChar (c : Char) : List Char :=
  match c with
  | '\x07' => ['\\', 'x', '0', '7']
  | '\x08' => ['\\', 'x', '0', '8']
  | '\x0c' => ['\\', 'x', '0', 'c']
  | '\x1b' => ['\\', 'x', '1', 'b']
  | '\x7f' => ['\\', 'x', '7', 'f']
  | c => if 0x80 ≤ c.toNat && c.toNat ≤ 0x9F then bracedEscape c else [c]

/-- `s` for a terminal that it must not steer. -/
def unsteering (s : String) : String :=
  String.ofList (s.toList.flatMap unsteeringChar)

end Campaign.Text
