import Campaign.Policy
import Campaign.Store

/-!
# Inserting records

A record with a new key is added. One whose key is stored already is a conflict, and a policy says
what becomes of the stored samples. A write that fails leaves the store as it was, also in the
middle of a batch.
-/

namespace Campaign

/-- What a record does to a table. -/
inductive Change where
  | nothing
  | add (row : Row)
  /-- Put other samples into the rows with a key. -/
  | update (key : Setting Int) (samples : Cell)
deriving DecidableEq, Repr

/-- The table after a change. -/
def Table.change (t : Table) : Change → Except DatabaseFault Table
  | .nothing => .ok t
  | .add row => t.add row
  | .update key samples => t.update key samples

namespace Store

/-- What came of a write, and the store after it. -/
abbrev Written (α : Type) := Except Fault α × Store

/-- Resolves a conflict between the stored `bytes` of a key and the samples of a record. -/
def resolve (s : Store) (policy : Policy) (r : Record) (bytes : Option (List UInt8)) :
    Except Fault Change :=
  match policy with
  | .ignore => .ok .nothing
  | .replace => .ok (.update r.key.integers (s.codec.cell r.samples))
  | .merge =>
    match s.codec.samples bytes with
    | .error fault => .error (.blob fault)
    | .ok old => .ok (.update r.key.integers (s.codec.cell (Matrix.merge old r.samples)))

/-- What is to be done with a record, and what that comes to. -/
def plan (s : Store) (policy : Policy) (r : Record) : Except Fault (Outcome × Change) :=
  match s.table.find? r.key.integers with
  | none => .ok (.inserted, .add (.ofIntegers r.key.integers (s.codec.cell r.samples)))
  | some cell =>
    match cell.stored 0 with
    | .error fault => .error (.database fault)
    | .ok bytes => (s.resolve policy r bytes).map fun change => (policy.outcome, change)

/-- The store after a change of its table. -/
def change (s : Store) (change : Change) : Except Fault Store :=
  if change ≠ .nothing ∧ ¬s.isWritable then .error (.database .readOnly)
  else
    match s.table.change change with
    | .error fault => .error (.database fault)
    | .ok table => .ok { s with table }

/-- Writes one record. -/
def write (s : Store) (policy : Policy) (r : Record) : Except Fault (Outcome × Store) :=
  match s.plan policy r with
  | .error fault => .error fault
  | .ok (outcome, change) => (s.change change).map fun s => (outcome, s)

/-- Writes records one after another, each on what the ones before it left. -/
def writeAll (policy : Policy) : Store → List Record → Except Fault (List Outcome × Store)
  | s, [] => .ok ([], s)
  | s, r :: rs =>
    match s.write policy r with
    | .error fault => .error fault
    | .ok (outcome, s) =>
      (writeAll policy s rs).map fun (outcomes, s) => (outcome :: outcomes, s)

/-- Keeps what a change makes of `s` if it succeeds, and `s` if it fails. -/
def commit {α : Type} (s : Store) : Except Fault (α × Store) → Written α
  | .ok (a, s') => (.ok a, s')
  | .error fault => (.error fault, s)

/-- Inserts one record. -/
def insert (s : Store) (policy : Policy) (r : Record) : Written Outcome :=
  s.commit (s.write policy r)

/-- Inserts all of some records, or none of them. -/
def insertMany (s : Store) (policy : Policy) (rs : List Record) : Written Tally :=
  s.commit ((s.writeAll policy rs).map fun (outcomes, s) => (Tally.ofOutcomes outcomes, s))

end Store
end Campaign
