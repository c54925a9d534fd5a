import Campaign.Text.Folded

/-!
# Conflicts

What happens to a record whose key is already stored, what came of each record, and how many came
to what.
-/

namespace Campaign

/-- What to do with a record whose key is already stored. -/
inductive Policy where
  /-- Keep the stored samples. -/
  | ignore
  /-- Put the new samples in their place. -/
  | replace
  /-- Append the new samples to them. -/
  | merge
deriving DecidableEq, Repr

namespace Policy

def name : Policy → String
  | ignore => "ignore"
  | replace => "replace"
  | merge => "merge"

/-- The policy of a name in lower case. -/
def ofName? : String → Option Policy
  | "ignore" => some ignore
  | "replace" => some replace
  | "merge" => some merge
  | _ => none

/-- The policy of a name, whatever its case. -/
def ofAnyName? (s : String) : Option Policy :=
  ofName? (Text.folded s)

/-- The answer to a name that is no policy. -/
def unknownMessage (name : String) : String :=
  "invalid conflict policy: " ++ name

/-- The policy where none is given. -/
def standard : Policy := ignore

end Policy

/-- What came of inserting a record. -/
inductive Outcome where
  /-- The key was new. -/
  | inserted
  | ignored
  | replaced
  | merged
deriving DecidableEq, Repr

namespace Outcome

def isConflict (o : Outcome) : Bool :=
  o ≠ inserted

/-- The outcome in words. -/
def text : Outcome → String
  | inserted => "inserted"
  | ignored => "conflict ignored"
  | replaced => "conflict replaced"
  | merged => "conflict merged"

/-- The name of an outcome in exported data. -/
def exportName : Outcome → String
  | inserted => "inserted"
  | ignored => "ignored"
  | replaced => "replaced"
  | merged => "merged"

end Outcome

/-- The outcome of a conflict under a policy. -/
def Policy.outcome : Policy → Outcome
  | ignore => .ignored
  | replace => .replaced
  | merge => .merged

/-- How many records came to each outcome. -/
structure Tally where
  inserted : Nat := 0
  ignored : Nat := 0
  replaced : Nat := 0
  merged : Nat := 0
deriving DecidableEq, Repr

namespace Tally

/-- Counts one more outcome. -/
def add (t : Tally) : Outcome → Tally
  | .inserted => { t with inserted := t.inserted + 1 }
  | .ignored => { t with ignored := t.ignored + 1 }
  | .replaced => { t with replaced := t.replaced + 1 }
  | .merged => { t with merged := t.merged + 1 }

/-- The tally of a list of outcomes. -/
def ofOutcomes (os : List Outcome) : Tally :=
  os.foldl add {}

def conflicts (t : Tally) : Nat :=
  t.ignored + t.replaced + t.merged

def total (t : Tally) : Nat :=
  t.inserted + t.conflicts

end Tally
end Campaign
