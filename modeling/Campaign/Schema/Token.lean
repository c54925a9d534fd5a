import Campaign.Cell.Affinity

/-!
# Tokens of definitions

The words, names, literals and marks in the definition of a table, without the blanks and comments
between them. Each token knows where it stands, since the text of a type or a check is cut out of
the definition as it is written.
-/

namespace Campaign.Schema

/-- What a token is. -/
inductive Lexeme where
  /-- A word in lower case, and as it is written. -/
  | word (lower written : String)
  /-- A name between marks; between double quotes it may be a text too. -/
  | quotedName (name : String) (isText : Bool)
  | text (s : String)
  | number (c : Cell)
  | bytes (bytes : List UInt8)
  | mark (s : String)
deriving DecidableEq, Repr

/-- A token, with the number of characters of the source from its start on and behind its end. -/
structure Token where
  lexeme : Lexeme
  fromStart : Nat
  behind : Nat
deriving DecidableEq, Repr

namespace Token

def isSpace (c : Char) : Bool :=
  c == ' ' || c == '\t' || c == '\n' || c == '\x0c' || c == '\r'

/-- What follows the end of a comment between slashes and stars. -/
def skipStarComment : List Char → List Char
  | '*' :: '/' :: rest => rest
  | _ :: rest => skipStarComment rest
  | [] => []

/-- What follows the blanks and comments at the start of a text. -/
def skipSpace (fuel : Nat) (s : List Char) : List Char :=
  match fuel, s.dropWhile isSpace with
  | fuel + 1, '-' :: '-' :: rest => skipSpace fuel (rest.dropWhile (· ≠ '\n'))
  | fuel + 1, '/' :: '*' :: rest => skipSpace fuel (skipStarComment rest)
  | _, rest => rest

/-- Reads up to a closing mark, which stands for itself where it is doubled. -/
def takeQuoted? (mark : Char) (read : List Char) : List Char → Option (String × List Char)
  | [] => none
  | c :: rest =>
    if c ≠ mark then takeQuoted? mark (c :: read) rest
    else
      match rest with
      | d :: rest' =>
        if d = mark ∧ mark ≠ ']' then takeQuoted? mark (c :: read) rest'
        else some (String.ofList read.reverse, rest)
      | [] => some (String.ofList read.reverse, rest)

def isWordStart (c : Char) : Bool :=
  c.isAlpha || c == '_' || 0x80 ≤ c.toNat

def isWordChar (c : Char) : Bool :=
  isWordStart c || c.isDigit || c == '$'

def hexDigit? (c : Char) : Option Nat :=
  if c.isDigit then some (c.toNat - 48)
  else if 'a' ≤ c.toLower ∧ c.toLower ≤ 'f' then some (c.toLower.toNat - 87)
  else none

/-- The bytes of hexadecimal digits, two for each. -/
def bytesOfHex? : List Char → Option (List UInt8)
  | a :: b :: rest => do
    return UInt8.ofNat (16 * (← hexDigit? a) + (← hexDigit? b)) :: (← bytesOfHex? rest)
  | [] => some []
  | [_] => none

/-- How long the number at the start of a text is. -/
def numberLength (s : List Char) : Nat :=
  let digits (s : List Char) : Nat := (s.takeWhile Char.isDigit).length
  let whole := digits s
  let point := match s.drop whole with
    | '.' :: rest => 1 + digits rest
    | _ => 0
  let exponent := match s.drop (whole + point) with
    | e :: rest =>
      if e.toLower ≠ 'e' then 0
      else
        let sign := match rest with
          | '+' :: _ | '-' :: _ => 1
          | _ => 0
        let length := digits (rest.drop sign)
        if length = 0 then 0 else 1 + sign + length
    | [] => 0
  whole + point + exponent

/-- Reads a number. -/
def takeNumber? (s : List Char) : Option (Cell × List Char) :=
  match s with
  | '0' :: x :: rest =>
    let digits := rest.takeWhile fun c => (hexDigit? c).isSome
    if x.toLower = 'x' ∧ ¬digits.isEmpty then
      let n := digits.foldl (fun n c => 16 * n + (hexDigit? c).getD 0) 0
      some (.integer n, rest.drop digits.length)
    else decimal
  | _ => decimal
where
  decimal : Option (Cell × List Char) :=
    let length := numberLength s
    (Cell.ofDigits? (s.take length)).map fun c => (c, s.drop length)

/-- The marks, longer ones first. -/
def marks : List String :=
  ["->>", "||", "<<", ">>", "<=", ">=", "==", "!=", "<>", "->", "+", "-", "*", "/", "%", "&", "|",
    "<", ">", "=", "~", "(", ")", ",", "."]

/-- Reads one token; the text does not start with a blank. -/
def takeLexeme? (s : List Char) : Option (Lexeme × List Char) :=
  match s with
  | [] => none
  | c :: rest =>
    if c = '\'' then (takeQuoted? '\'' [] rest).map fun (t, rest) => (.text t, rest)
    else if c = '"' then (takeQuoted? '"' [] rest).map fun (t, rest) => (.quotedName t true, rest)
    else if c = '\x60' then
      (takeQuoted? '\x60' [] rest).map fun (t, rest) => (.quotedName t false, rest)
    else if c = '[' then (takeQuoted? ']' [] rest).map fun (t, rest) => (.quotedName t false, rest)
    else if c.isDigit || (c == '.' && (rest.head?.map Char.isDigit).getD false) then
      (takeNumber? s).map fun (n, rest) => (.number n, rest)
    else if c.toLower = 'x' ∧ rest.head? = some '\'' then
      (takeQuoted? '\'' [] (rest.drop 1)).bind fun (t, rest) =>
        (bytesOfHex? t.toList).map fun bytes => (.bytes bytes, rest)
    else if isWordStart c then
      let word := s.takeWhile isWordChar
      some (.word (String.ofList (word.map Char.toLower)) (String.ofList word),
        s.drop word.length)
    else
      (marks.find? fun mark => mark.toList.isPrefixOf s).map fun mark =>
        (.mark mark, s.drop mark.length)

/-- The tokens of a text. -/
def tokens? (fuel : Nat) (s : List Char) : Option (List Token) :=
  match fuel, skipSpace s.length s with
  | _, [] => some []
  | 0, _ => none
  | fuel + 1, s => do
    let (lexeme, rest) ← takeLexeme? s
    return ⟨lexeme, s.length, rest.length⟩ :: (← tokens? fuel rest)

/-- The tokens of a definition. -/
def ofText? (s : List Char) : Option (List Token) :=
  tokens? (s.length + 1) s

/-- What follows a word, if it comes first. -/
def skipWord? (word : String) : List Token → Option (List Token)
  | ⟨.word lower _, _, _⟩ :: rest => if lower = word then some rest else none
  | _ => none

/-- What follows some words, if they come first. -/
def skipWords? (words : List String) (s : List Token) : Option (List Token) :=
  words.foldlM (fun s word => skipWord? word s) s

/-- What follows a mark, if it comes first. -/
def skipMark? (mark : String) : List Token → Option (List Token)
  | ⟨.mark found, _, _⟩ :: rest => if found = mark then some rest else none
  | _ => none

/-- Reads a name, quoted or not. -/
def takeName? : List Token → Option (String × List Token)
  | ⟨.word _ written, _, _⟩ :: rest => some (written, rest)
  | ⟨.quotedName name _, _, _⟩ :: rest => some (name, rest)
  | ⟨.text name, _, _⟩ :: rest => some (name, rest)
  | _ => none

end Token
end Campaign.Schema
