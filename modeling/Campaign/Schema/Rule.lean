import Campaign.Expression.Evaluation
import Campaign.Row

/-!
# Rules

What a schema makes of a row that is to be written. The cells are brought into the form of their
columns; a cell that has to be there must be there; no check may be false; and no other row may be
the same in all columns of a key. The reaction of the first rule that is broken decides.
-/

namespace Campaign.Schema

/-- What reads a column that is not computed. -/
def plainReader (column : Column) (name : String) : Row → Cell :=
  (Row.reader? name).getD fun _ => column.standard

/-- What reads the column with a name, if there is such a column. What a column is computed by may
use other computed columns, `depth` deep. -/
def reader? (s : Schema) : (depth : Nat) → (name : String) → Option (Row → Cell)
  | 0, name => (s.column? name).map fun column =>
    if column.computed.isSome then fun _ => .absent else plainReader column name
  | depth + 1, name => (s.column? name).map fun column =>
    match column.computed with
    | none => plainReader column name
    | some e => fun row =>
      column.affinity.apply
        (e.evaluate ⟨fun name => (s.reader? depth name).map (· row), s.affinity, s.collation⟩)

/-- What reads the column with a name; it finds nothing if there is no such column. -/
def reader (s : Schema) (name : String) : Row → Cell :=
  (s.reader? s.columns.length name).getD fun _ => .absent

/-- What the names in an expression about a row stand for. -/
def scope (s : Schema) (row : Row) : Scope :=
  ⟨fun name => (s.reader? s.columns.length name).map (· row), s.affinity, s.collation⟩

/-- A row in the form of its columns. -/
def shape (s : Schema) (row : Row) : Row where
  key := .ofFn fun p => (s.affinity p.columnName).apply (row.key.get p)
  samples := (s.affinity samplesName).apply row.samples

/-- The rows around a row that is to be written: those before its place and those behind it. -/
structure Neighbours where
  before : List Row
  behind : List Row

namespace Neighbours

def any (test : Row → Bool) (n : Neighbours) : Bool :=
  n.before.any test || n.behind.any test

def filter (test : Row → Bool) (n : Neighbours) : Neighbours :=
  ⟨n.before.filter test, n.behind.filter test⟩

end Neighbours

/-- The greatest of some integers plus one, 1 if there are none. -/
def nextNumber (cells : List Cell) : Int :=
  match cells.filterMap Cell.integer? with
  | [] => 1
  | n :: ns => ns.foldl (fun m n => if m < n then n else m) n + 1

/-- A row with an integer in the column that numbers the rows; a new row without one gets the
greatest number plus one. -/
def number (s : Schema) (isNew : Bool) (others : Neighbours) (row : Row) :
    Except DatabaseFault Row :=
  match s.numbering with
  | none => .ok row
  | some name =>
    match s.reader name row with
    | .integer _ => .ok row
    | .absent =>
      if isNew then
        let numbers := (others.before ++ others.behind).map (s.reader name)
        .ok (row.setCell name (.integer (nextNumber numbers)))
      else .error .numbering
    | _ => .error .numbering

/-- A row with a cell in each of some columns that has to have one; nothing if the row is not to be
written. A reaction that is forced counts in place of the ones of the columns. -/
def fill (s : Schema) (forced : Option Reaction) (row : Row) :
    List Column → Except DatabaseFault (Option Row)
  | [] => .ok (some row)
  | column :: columns =>
    match column.required with
    | none => s.fill forced row columns
    | some reaction =>
      if s.reader column.name row ≠ .absent then s.fill forced row columns
      else
        match forced.getD reaction with
        | .refuse => .error (.required column.name)
        | .skip => .ok none
        | .evict =>
          if column.standard = .absent then .error (.required column.name)
          else s.fill forced (row.setCell column.name column.standard) columns

/-- Refuses a row of which a check is false. -/
def inspect (s : Schema) (row : Row) : Except DatabaseFault Unit :=
  match s.checks.find? fun c => (c.condition.evaluate (s.scope row)).truth? = some false with
  | some c => .error (.check c.name)
  | none => .ok ()

/-- The columns of a key as they are compared, and the cells that a row has there. -/
def values (s : Schema) (key : UniqueKey) (row : Row) : List ((Row → Cell) × Collation × Cell) :=
  key.columns.map fun (name, c) => (s.reader name, c, s.reader name row)

/-- Whether a row has some cells in some columns. -/
def hasValues (values : List ((Row → Cell) × Collation × Cell)) (row : Row) : Bool :=
  values.all fun (read, c, cell) => Cell.same c cell (read row)

/-- The other rows that may stay beside a row under some keys; nothing if it is not to be written.
-/
def clear (s : Schema) (forced : Option Reaction) (row : Row) :
    List UniqueKey → Neighbours → Except DatabaseFault (Option Neighbours)
  | [], others => .ok (some others)
  | key :: keys, others =>
    let values := s.values key row
    if others.any (hasValues values) then
      match (forced.or key.reaction).getD .refuse with
      | .refuse => .error (.notUnique (key.columns.map Prod.fst))
      | .skip => .ok none
      | .evict => s.clear forced row keys (others.filter fun other => !hasValues values other)
    else s.clear forced row keys others

/-- A row as it is written, and the other rows that stay beside it; nothing if it is not to be
written. -/
def settle (s : Schema) (forced : Option Reaction) (isNew : Bool) (others : Neighbours)
    (row : Row) : Except DatabaseFault (Option (Row × Neighbours)) :=
  match s.references with
  | table :: _ => .error (.noTable table)
  | [] => do
    let row ← s.number isNew others (s.shape row)
    match ← s.fill forced row s.columns with
    | none => return none
    | some row =>
      s.inspect row
      return (← s.clear forced row s.keys others).map fun others => (row, others)

end Campaign.Schema
