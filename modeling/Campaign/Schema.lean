import Campaign.Expression
import Campaign.Fault
import Campaign.Setting

/-!
# Schemas

The columns of a table of trials and what its rows have to keep to. The standard schema is the one
of every table that a store makes: four integers as the key of a row and a cell for its samples. A
table that was made in another way may have other columns, checks and keys.
-/

namespace Campaign

/-- What becomes of a row that breaks a rule. -/
inductive Reaction where
  /-- The write fails. -/
  | refuse
  /-- The row is not written. -/
  | skip
  /-- What is in the way is removed. -/
  | evict
deriving DecidableEq, Repr

/-- A column as it was declared. -/
structure Column where
  name : String
  affinity : Affinity
  collation : Collation := .binary
  /-- What becomes of a row without a cell for the column, if it has to have one. -/
  required : Option Reaction := none
  /-- The cell of a row that is given none. -/
  standard : Cell := .absent
  /-- What the column is computed by, if it is. -/
  computed : Option Expression := none
deriving DecidableEq, Repr

/-- Columns that tell rows apart: no two rows are the same in all of them. -/
structure UniqueKey where
  columns : List (String × Collation)
  reaction : Option Reaction := none
deriving DecidableEq, Repr

/-- A condition that must not be false of a row. -/
structure Check where
  name : String
  condition : Expression
deriving DecidableEq, Repr

structure Schema where
  columns : List Column
  /-- The keys, in the order in which they are looked at. -/
  keys : List UniqueKey
  checks : List Check := []
  /-- The column that numbers the rows, if there is one. -/
  numbering : Option String := none
  /-- The tables that columns refer to. -/
  references : List String := []
  /-- The definitions that the schema was read from. -/
  source : List String
deriving DecidableEq, Repr

namespace Parameter

/-- The column of a parameter in the standard schema. -/
def standardColumn (p : Parameter) : Column :=
  { name := p.columnName, affinity := .numeric, required := some .refuse }

end Parameter

namespace Schema

/-- The name of the column for samples. -/
def samplesName : String := "samples"

/-- The schema of a table that a store makes. -/
def standard : Schema where
  columns := Parameter.all.map Parameter.standardColumn
    ++ [{ name := samplesName, affinity := .none }]
  keys := [{ columns := Parameter.all.map fun p => (p.columnName, .binary) }]
  source := Parameter.all.map (·.columnName ++ " INTEGER NOT NULL")
    ++ [samplesName ++ " BLOB",
      "PRIMARY KEY (" ++ ", ".intercalate (Parameter.all.map Parameter.columnName) ++ ")"]

/-- Whether two names are the same; case does not count. -/
def sameName (a b : String) : Bool :=
  a.toList.map Char.toLower == b.toList.map Char.toLower

/-- The column with a name. -/
def column? (s : Schema) (name : String) : Option Column :=
  s.columns.find? fun column => sameName column.name name

/-- The names of the columns that are not computed. -/
def columnNames (s : Schema) : List String :=
  (s.columns.filter fun column => column.computed.isNone).map Column.name

/-- The affinity of the column with a name. -/
def affinity (s : Schema) (name : String) : Affinity :=
  match s.column? name with
  | some column => column.affinity
  | none => .none

/-- The collation of the column with a name. -/
def collation (s : Schema) (name : String) : Collation :=
  match s.column? name with
  | some column => column.collation
  | none => .binary

/-- Checks the names of the columns and their order. -/
def checkLayout (s : Schema) : Except DatabaseFault Unit :=
  if s.columnNames = standard.columnNames then .ok ()
  else .error (.layout s.columnNames standard.columnNames)

end Schema
end Campaign
