import Campaign.Export.Number
import Campaign.Record

/-!
# Records as JSON

A list of records is an array of objects, each with the key and the samples of a trial. The layout
is compact, or it has one item to a line, indented by two blanks for each level.
-/

namespace Campaign.Export

/-- How items are laid out. -/
inductive Layout where
  | compact
  | indented
deriving DecidableEq, Repr

namespace Layout

/-- What stands before an item, or a closing bracket, at a depth. -/
def lineBreak : Layout → (depth : Nat) → List Char
  | compact, _ => []
  | indented, depth => '\n' :: List.replicate (2 * depth) ' '

/-- What stands between a name and its item. -/
def colon : Layout → List Char
  | compact => [':']
  | indented => [':', ' ']

end Layout

/-- Items one after another, with a comma between two of them. -/
def separated (l : Layout) (depth : Nat) : List (List Char) → List Char
  | [] => []
  | [item] => l.lineBreak depth ++ item
  | item :: items => l.lineBreak depth ++ item ++ [','] ++ separated l depth items

/-- Items between brackets that stand at a depth. -/
def bracketed (l : Layout) (depth : Nat) (opening closing : Char) (items : List (List Char)) :
    List Char :=
  match items with
  | [] => [opening, closing]
  | _ => [opening] ++ separated l (depth + 1) items ++ l.lineBreak depth ++ [closing]

/-- An array at a depth, of items written one level deeper. -/
def array (l : Layout) (depth : Nat) (items : List (List Char)) : List Char :=
  bracketed l depth '[' ']' items

/-- An object at a depth, of named items written one level deeper. The names need no escapes. -/
def object (l : Layout) (depth : Nat) (members : List (String × List Char)) : List Char :=
  bracketed l depth '\x7b' '\x7d'
    (members.map fun (name, item) => ['"'] ++ name.toList ++ ['"'] ++ l.colon ++ item)

/-- A key, with each parameter under the name of its column. -/
def key (l : Layout) (depth : Nat) (k : Key) : List Char :=
  object l depth (Parameter.all.map fun p => (p.columnName, Nat.toDigits 10 (k.get p).toNat))

def sample (l : Layout) (depth : Nat) (s : Sample) : List Char :=
  array l depth (s.values.map value)

def samples (l : Layout) (depth : Nat) : Option Matrix → List Char
  | none => "null".toList
  | some m => object l depth [("rows", array l (depth + 1) (m.rows.map (sample l (depth + 2))))]

def record (l : Layout) (depth : Nat) (r : Record) : List Char :=
  object l depth [("key", key l (depth + 1) r.key), ("samples", samples l (depth + 1) r.samples)]

/-- A list of records as JSON. -/
def records (l : Layout) (rs : List Record) : List Char :=
  array l 0 (rs.map (record l 1))

end Campaign.Export
