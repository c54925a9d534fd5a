import Campaign.Toml.Assembly
import Campaign.Toml.Quoted

/-!
# Reading documents

A document is read line by line: blank, a comment, a header, or a name and its item. Readers give
what they read and what follows it; they fail on text that no document holds. `fuel` bounds the
number of steps; the length of the text is always enough.
-/

namespace Campaign.Toml

/-- Arrays and braces nest at most this deep, and names have at most this many parts. -/
def depthLimit : Nat := 79

/-- What follows the blanks at the start of `s`. -/
def skipBlanks (s : List Char) : List Char :=
  s.dropWhile fun c => c == ' ' || c == '\t'

/-- What follows a comment, up to the end of its line. A comment has the characters of a string. -/
def skipComment (s : List Char) : List Char :=
  match s with
  | '#' :: rest => rest.dropWhile isLineChar
  | _ => s

/-- What follows the rest of a line on which nothing more may stand. -/
def endLine? (s : List Char) : Option (List Char) :=
  match skipComment (skipBlanks s) with
  | [] => some []
  | '\n' :: rest => some rest
  | '\r' :: '\n' :: rest => some rest
  | _ => none

/-- What follows the blanks, comments and line endings between the items of an array. -/
def skipBetween (fuel : Nat) (s : List Char) : List Char :=
  match fuel, skipComment (skipBlanks s) with
  | fuel + 1, '\n' :: rest => skipBetween fuel rest
  | fuel + 1, '\r' :: '\n' :: rest => skipBetween fuel rest
  | _, rest => rest

def isBareNameChar (c : Char) : Bool :=
  c.isAlphanum || c == '_' || c == '-'

/-- Reads one part of a name. -/
def takeNamePart? (s : List Char) : Taken :=
  match s with
  | [] => none
  | c :: _ =>
    if c = '"' || c = '\'' then takeLineString? s
    else
      let name := s.takeWhile isBareNameChar
      if name.isEmpty then none else some (String.ofList name, s.dropWhile isBareNameChar)

/-- Reads a name: parts with dots between them, and blanks around both. -/
def takeName? (fuel : Nat) (s : List Char) : Option (List String × List Char) :=
  match fuel with
  | 0 => none
  | fuel + 1 => do
    let (part, rest) ← takeNamePart? (skipBlanks s)
    match skipBlanks rest with
    | '.' :: rest => do
      let (parts, rest) ← takeName? fuel rest
      return (part :: parts, rest)
    | rest => return ([part], rest)

mutual

/-- Reads an item, where arrays and braces may still nest `depth` deep. -/
def takeItem? (fuel depth : Nat) (s : List Char) : Option (Item × List Char) :=
  match fuel, s with
  | 0, _ => none
  | fuel + 1, '[' :: rest =>
    match depth with
    | 0 => none
    | depth + 1 => do
      let (items, rest) ← takeElements? fuel depth rest
      return (.array items, rest)
  | fuel + 1, '\x7b' :: rest =>
    match depth with
    | 0 => none
    | depth + 1 => do
      let (members, rest) ← match skipBlanks rest with
        | '\x7d' :: rest => some ([], rest)
        | rest => takeMembers? fuel depth rest
      return (← inlineTable? members, rest)
  | _ + 1, c :: rest =>
    if c = '"' || c = '\'' then
      (takeString? (c :: rest)).map fun (s, rest) => (.string s, rest)
    else takeScalar? (c :: rest)
  | _ + 1, [] => none

/-- Reads the items of an array up to its closing bracket. -/
def takeElements? (fuel depth : Nat) (s : List Char) : Option (List Item × List Char) :=
  match fuel, skipBetween s.length s with
  | 0, _ => none
  | _ + 1, ']' :: rest => some ([], rest)
  | fuel + 1, s => do
    let (item, rest) ← takeItem? fuel depth s
    match skipBetween rest.length rest with
    | ',' :: rest => do
      let (items, rest) ← takeElements? fuel depth rest
      return (item :: items, rest)
    | ']' :: rest => return ([item], rest)
    | _ => none

/-- Reads the named items between braces up to the closing one. -/
def takeMembers? (fuel depth : Nat) (s : List Char) :
    Option (List (List String × Item) × List Char) :=
  match fuel with
  | 0 => none
  | fuel + 1 => do
    let (member, rest) ← takeMember? fuel depth s
    match skipBlanks rest with
    | ',' :: rest => do
      let (members, rest) ← takeMembers? fuel depth rest
      return (member :: members, rest)
    | '\x7d' :: rest => return ([member], rest)
    | _ => none

/-- Reads a name, an equals sign and an item. -/
def takeMember? (fuel depth : Nat) (s : List Char) : Option ((List String × Item) × List Char) :=
  match fuel with
  | 0 => none
  | fuel + 1 => do
    let (name, rest) ← takeName? depthLimit s
    match rest with
    | '=' :: rest => do
      let (item, rest) ← takeItem? fuel depth (skipBlanks rest)
      return ((name, item), rest)
    | _ => none

end

/-- The document read so far: the path of the last header, and the items. -/
structure Draft where
  header : List String
  root : Members

/-- Reads a header, from behind its opening bracket. -/
def takeHeader? (draft : Draft) (s : List Char) : Option (Draft × List Char) := do
  let (repeated, s) := match s with
    | '[' :: rest => (true, rest)
    | s => (false, s)
  let (path, rest) ← takeName? depthLimit s
  let rest ← match repeated, rest with
    | true, ']' :: ']' :: rest => some rest
    | false, ']' :: rest => some rest
    | _, _ => none
  return (⟨path, ← openHeader repeated path draft.root⟩, ← endLine? rest)

/-- Reads a name and its item. -/
def takeStatement? (fuel : Nat) (draft : Draft) (s : List Char) : Option (Draft × List Char) := do
  let ((path, item), rest) ← takeMember? fuel depthLimit s
  return ({ draft with root := ← addUnder draft.header path item draft.root }, ← endLine? rest)

/-- Reads the lines of a document onto a draft. -/
def takeLines? (fuel : Nat) (draft : Draft) (s : List Char) : Option Members :=
  match fuel with
  | 0 => none
  | fuel + 1 =>
    match skipComment (skipBlanks s) with
    | [] => some draft.root
    | '\n' :: rest => takeLines? fuel draft rest
    | '\r' :: '\n' :: rest => takeLines? fuel draft rest
    | '[' :: rest => do
      let (draft, rest) ← takeHeader? draft rest
      takeLines? fuel draft rest
    | s => do
      let (draft, rest) ← takeStatement? (3 * s.length + 3) draft s
      takeLines? fuel draft rest

/-- The members of the document that a text writes. A byte order mark at its start is skipped. -/
def document? (s : List Char) : Option Members :=
  let s := match s with
    | '\uFEFF' :: rest => rest
    | s => s
  takeLines? (s.length + 1) ⟨[], []⟩ s

end Campaign.Toml
