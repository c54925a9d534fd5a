import Campaign.Toml.Scalar

/-!
# Strings

The four kinds of strings in a document: between quotes or apostrophes, on one line or on several.
Quotes allow escapes. Each reader starts behind the opening marks and gives the text and what
follows the closing ones.
-/

namespace Campaign.Toml

/-- The characters that may stand in a string as they are. -/
def isLineChar (c : Char) : Bool :=
  c == '\t' || (' ' ≤ c && c ≠ '\x7f')

/-- The character of a code point in hexadecimal digits. -/
def codePoint? (digits : List Char) : Option Char :=
  let n := numberInBase 16 digits
  if digits.all isHexDigit && n.isValidChar then some (Char.ofNat n) else none

/-- The character of an escape, and what follows it. -/
def escape? : List Char → Option (Char × List Char)
  | 'b' :: s => some ('\x08', s)
  | 't' :: s => some ('\t', s)
  | 'n' :: s => some ('\n', s)
  | 'f' :: s => some ('\x0c', s)
  | 'r' :: s => some ('\r', s)
  | '"' :: s => some ('"', s)
  | '\\' :: s => some ('\\', s)
  | 'u' :: s => if 4 ≤ s.length then (codePoint? (s.take 4)).map fun c => (c, s.drop 4) else none
  | 'U' :: s => if 8 ≤ s.length then (codePoint? (s.take 8)).map fun c => (c, s.drop 8) else none
  | _ => none

/-- A text read so far, last character first, and what follows it. -/
abbrev Taken := Option (String × List Char)

/-- Ends a text whose characters are collected last first. -/
def closeString (text rest : List Char) : Taken :=
  some (String.ofList text.reverse, rest)

/-- Reads a literal string on one line. -/
def takeLiteral? (text : List Char) : List Char → Taken
  | [] => none
  | c :: s => if c = '\'' then closeString text s
    else if isLineChar c then takeLiteral? (c :: text) s
    else none

/-- Reads a string with escapes on one line. -/
def takeBasic? (fuel : Nat) (text s : List Char) : Taken :=
  match fuel, s with
  | fuel + 1, '\\' :: s => do
    let (c, s) ← escape? s
    takeBasic? fuel (c :: text) s
  | fuel + 1, c :: s => if c = '"' then closeString text s
    else if isLineChar c then takeBasic? fuel (c :: text) s
    else none
  | _, _ => none

/-- Three marks in a row close a string on several lines; up to two more before them belong to the
text. -/
def closing? (mark : Char) (text s : List Char) : Taken :=
  let marks := (s.takeWhile (· == mark)).length
  if marks < 3 then none
  else if marks ≤ 5 then
    closeString (List.replicate (marks - 3) mark ++ text) (s.drop marks)
  else closeString (List.replicate 2 mark ++ text) (s.drop 5)

/-- Reads a literal string on several lines. -/
def takeLiteralLines? (fuel : Nat) (text s : List Char) : Taken :=
  match fuel, s with
  | fuel + 1, '\r' :: '\n' :: s => takeLiteralLines? fuel ('\n' :: text) s
  | fuel + 1, c :: rest =>
    if c = '\'' then
      (closing? '\'' text s).orElse fun _ => takeLiteralLines? fuel (c :: text) rest
    else if c = '\n' || isLineChar c then takeLiteralLines? fuel (c :: text) rest
    else none
  | _, _ => none

/-- What follows the blanks and line endings at the start of `s`. -/
def skipSpace : List Char → List Char
  | '\r' :: '\n' :: s => skipSpace s
  | c :: s => if c = ' ' || c = '\t' || c = '\n' then skipSpace s else c :: s
  | [] => []

/-- What follows a backslash that ends its line: the blanks and line endings after it are no part
of the text. -/
def afterLineEnd? (s : List Char) : Option (List Char) :=
  match s.dropWhile fun c => c == ' ' || c == '\t' with
  | '\n' :: rest => some (skipSpace rest)
  | '\r' :: '\n' :: rest => some (skipSpace rest)
  | _ => none

/-- Reads a string with escapes on several lines. -/
def takeBasicLines? (fuel : Nat) (text s : List Char) : Taken :=
  match fuel, s with
  | fuel + 1, '\r' :: '\n' :: s => takeBasicLines? fuel ('\n' :: text) s
  | fuel + 1, '\\' :: s =>
    match afterLineEnd? s with
    | some rest => takeBasicLines? fuel text rest
    | none => do
      let (c, s) ← escape? s
      takeBasicLines? fuel (c :: text) s
  | fuel + 1, c :: rest =>
    if c = '"' then (closing? '"' text s).orElse fun _ => takeBasicLines? fuel (c :: text) rest
    else if c = '\n' || isLineChar c then takeBasicLines? fuel (c :: text) rest
    else none
  | _, _ => none

/-- A line ending directly behind the opening marks is no part of the text. -/
def dropFirstLineEnd : List Char → List Char
  | '\n' :: s => s
  | '\r' :: '\n' :: s => s
  | s => s

/-- Reads a string on one line, marks included. -/
def takeLineString? : List Char → Taken
  | '"' :: s => takeBasic? (s.length + 1) [] s
  | '\'' :: s => takeLiteral? [] s
  | _ => none

/-- Reads a string of any kind, marks included. -/
def takeString? : List Char → Taken
  | '"' :: '"' :: '"' :: s => takeBasicLines? (s.length + 1) [] (dropFirstLineEnd s)
  | '\'' :: '\'' :: '\'' :: s => takeLiteralLines? (s.length + 1) [] (dropFirstLineEnd s)
  | s => takeLineString? s

end Campaign.Toml
