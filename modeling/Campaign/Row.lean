import Campaign.Cell
import Campaign.Fault
import Campaign.Schema

/-!
# Rows

One stored trial, as its table holds it. A store only writes keys that trials can have, and bytes or
nothing as samples, but a table may hold other rows.
-/

namespace Campaign

structure Row where
  key : Setting Cell
  samples : Cell
deriving DecidableEq, Repr

namespace Cell

def kind : Cell → CellKind
  | absent => .absent
  | integer _ => .integer
  | real _ => .real
  | text _ => .text
  | blob _ => .blob

end Cell

namespace Row

/-- The row of a key of integers. -/
def ofIntegers (key : Setting Int) (samples : Cell) : Row :=
  ⟨key.map Cell.integer, samples⟩

/-- Whether a row has a key. -/
def hasKey (key : Setting Int) (row : Row) : Bool :=
  Parameter.all.all fun p => (row.key.get p).isWorth (key.get p)

/-- The parameter whose column has a name. -/
def parameter? (name : String) : Option Parameter :=
  Parameter.all.find? fun p => Schema.sameName p.columnName name

/-- What reads the column with a name, if rows have cells there. -/
def reader? (name : String) : Option (Row → Cell) :=
  match parameter? name with
  | some p => some fun row => row.key.get p
  | none => if Schema.sameName Schema.samplesName name then some samples else none

/-- The row with another cell in the column with a name. -/
def setCell (row : Row) (name : String) (c : Cell) : Row :=
  match parameter? name with
  | some p => { row with key := row.key.set p c }
  | none => if Schema.sameName Schema.samplesName name then { row with samples := c } else row

end Row
end Campaign
