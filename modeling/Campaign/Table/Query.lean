import Campaign.Filter
import Campaign.Table
import Campaign.Table.Samples

/-!
# Reading tables

Queries give the records that a filter takes, in the order of their rows. A statement names the values it
compares with by numbers only, and they come in a list of their own. A row is read in full, so a query fails
on the first row in its reach that no trial can have left.
-/

namespace Campaign.Table

/-- The value that a cell is for a parameter, read as the result column `column`. -/
def readField (column : Nat) (p : Parameter) : Cell → Except DatabaseFault UInt32
  | .integer n =>
    if 0 ≤ n ∧ n ≤ Key.greatestField then .ok (UInt32.ofNat n.toNat)
    else .error (.outOfRange n column)
  | c => .error (.cellKind c.kind column p.columnName)

/-- The key of a row. -/
def readKey (key : Setting Cell) : Except DatabaseFault Key :=
  key.mapM? fun p cell => readField p.index p cell

/-- The record of a row. -/
def readRow (c : Codec) (row : Row) : Except Fault Record :=
  match readKey row.key with
  | .error fault => .error (.database fault)
  | .ok key =>
    match row.samples.stored 4 with
    | .error fault => .error (.database fault)
    | .ok bytes =>
      match c.samples bytes with
      | .error fault => .error (.blob fault)
      | .ok samples => .ok ⟨key, samples⟩

/-- The records of some rows, in order; the first row that is no record is the fault. -/
def readRows (c : Codec) (rows : List Row) : Except Fault (List Record) :=
  rows.mapM (readRow c)

/-- What a statement asks of a row. -/
inductive Term where
  /-- A parameter has one of the values that come with the statement, the one with a number. They are
  counted from 1. -/
  | placeholder (p : Parameter) (number : Nat)
  | noSamples
deriving DecidableEq, Repr

/-- Whether a row is as a term asks. Nothing equals a value that does not come. -/
def Term.holds (values : List UInt32) (row : Row) : Term → Bool
  | placeholder p number => values[number - 1]?.any fun v => (row.key.get p).isWorth v.toNat
  | noSamples => row.samples == .absent

/-- The records of the rows that are as all terms ask. -/
def select (c : Codec) (terms : List Term) (values : List UInt32) (t : Table) : Except Fault (List Record) :=
  readRows c (t.rows.filter fun row => terms.all (Term.holds values row))

/-- The terms for some conditions, whose values come with them in the same order. -/
def terms (conditions : List (Parameter × UInt32)) : List Term :=
  conditions.mapIdx fun place (p, _) => .placeholder p (place + 1)

/-- The records that a filter takes. -/
def query (c : Codec) (f : Filter) (t : Table) : Except Fault (List Record) :=
  t.select c (terms f.conditions) (f.conditions.map Prod.snd)

/-- The record of a key, if it is stored. -/
def get (c : Codec) (k : Key) (t : Table) : Except Fault (Option Record) :=
  (t.query c (Filter.exact k)).map List.head?

/-- The records of the trials without samples: the ones to run again. -/
def failedRecords (c : Codec) (t : Table) : Except Fault (List Record) :=
  t.select c [.noSamples] []

/-- `n` at its place in an ascending list, unless it is there already. -/
def insertAscending (n : Int) : List Int → List Int
  | [] => [n]
  | m :: ms => if n < m then n :: m :: ms else if n = m then m :: ms else m :: insertAscending n ms

/-- The integers that cells of a parameter hold; the first cell that holds none is the fault. -/
def readIntegers (p : Parameter) (cells : List Cell) : Except DatabaseFault (List Int) :=
  cells.mapM fun
    | .integer n => .ok n
    | c => .error (.cellKind c.kind 0 p.columnName)

/-- The values that rows have for a parameter, ascending. -/
def fieldValues (t : Table) (p : Parameter) : Except DatabaseFault (List UInt32) := do
  let ns ← readIntegers p (t.rows.map fun row => row.key.get p)
  (ns.foldr insertAscending []).mapM fun n => readField 0 p (.integer n)

/-- The values that stored trials have for each parameter. -/
def catalogue (t : Table) : Except Fault Catalogue :=
  ((Setting.ofFn id).mapM? fun p _ => t.fieldValues p).mapError .database

end Campaign.Table
