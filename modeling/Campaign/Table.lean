import Campaign.Codec
import Campaign.Record
import Campaign.Schema.Rule

/-!
# Tables of trials

The table beneath a store: a schema and the rows, in the order in which they were written.
-/

namespace Campaign

structure Table where
  schema : Schema
  rows : List Row
deriving DecidableEq, Repr

namespace Table

/-- The table that a store makes. -/
def empty : Table :=
  ⟨.standard, []⟩

/-- The samples of the first row with a key. -/
def find? (t : Table) (key : Setting Int) : Option Cell :=
  (t.rows.find? (Row.hasKey key)).map Row.samples

/-- The table with one more row at its end, unless the schema has it left out. -/
def addWith (forced : Option Reaction) (t : Table) (row : Row) : Except DatabaseFault Table :=
  (t.schema.settle forced true ⟨t.rows, []⟩ row).map fun
    | none => t
    | some (row, others) => { t with rows := others.before ++ [row] }

/-- The table with one more row. -/
def add (t : Table) (row : Row) : Except DatabaseFault Table :=
  t.addWith none row

/-- The table with one more row, and without the rows that are in its way. -/
def put (t : Table) (row : Row) : Except DatabaseFault Table :=
  t.addWith (some .evict) row

/-- Goes through rows and puts other samples into those with a key, each where the schema lets it;
`done` are the rows gone through, last first. -/
def updateRows (s : Schema) (key : Setting Int) (samples : Cell) :
    (fuel : Nat) → (done rest : List Row) → Except DatabaseFault (List Row)
  | fuel + 1, done, row :: rest =>
    if row.hasKey key then
      match s.settle none false ⟨done, rest⟩ { row with samples } with
      | .error fault => .error fault
      | .ok none => updateRows s key samples fuel (row :: done) rest
      | .ok (some (row, others)) =>
        updateRows s key samples fuel (row :: others.before) others.behind
    else updateRows s key samples fuel (row :: done) rest
  | _, done, rest => .ok (done.reverse ++ rest)

/-- The table with other samples in the rows with a key. -/
def update (t : Table) (key : Setting Int) (samples : Cell) : Except DatabaseFault Table :=
  (updateRows t.schema key samples t.rows.length [] t.rows).map fun rows => { t with rows }

def count (t : Table) : Nat :=
  t.rows.length

end Table

/-- How the changes of a database come into its file. -/
inductive Form where
  /-- At once. -/
  | direct
  /-- By way of another file. -/
  | staged
deriving DecidableEq, Repr

/-- The contents of a database file. -/
inductive Content where
  | bytes (bytes : List UInt8)
  | table (t : Table) (form : Form)
deriving DecidableEq, Repr

/-- How a database is written, if a file holds one. -/
def Content.form? : Content → Option Form
  | bytes _ => none
  | table _ form => some form

/-- Whether a file holds no table yet: it is empty, or has a single byte, which begins nothing. -/
def Content.isBlank : Content → Bool
  | bytes b => b.length ≤ 1
  | table _ _ => false

/-- Opens what a database file holds. One that is not there or holds no table yet becomes an empty
table. -/
def Table.open? : Option Content → Except DatabaseFault Table
  | none => .ok .empty
  | some (.table t _) => t.schema.checkLayout.map fun _ => t
  | some content => if content.isBlank then .ok .empty else .error .notADatabase

end Campaign
