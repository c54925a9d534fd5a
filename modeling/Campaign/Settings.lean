import Campaign.Log.Heading
import Campaign.Policy
import Campaign.Toml.Document

/-!
# Settings

What a document of settings says, with a value for everything it leaves out: where the database is,
which logs are ingested and under which policy, and how logs mark outcomes.
-/

namespace Campaign

structure Settings where
  /-- The path of the database, if the document names one. -/
  storePath : Option String
  logDirectory : String
  /-- The start of the names of the logs to ingest. -/
  pattern : String
  policy : Policy
  outcomeMarker : String
deriving DecidableEq, Repr

namespace Settings

/-- The settings where there is no document. -/
def standard : Settings where
  storePath := none
  logDirectory := "logs"
  pattern := ""
  policy := .standard
  outcomeMarker := Log.standardMarker

/-- The item of a section that has the given name, or the given place in a section that is a list. A
section may also be a moment, which has no items. `none` if this can be no section at all. -/
def member? (section? : Option Toml.Item) (name : String) (index : Nat) :
    Option (Option Toml.Item) :=
  match section? with
  | none => some none
  | some (.table _ members) => some (members.lookup name)
  | some .moment => some none
  | some item => item.elements?.map (·[index]?)

/-- The text that an item is, or `standard` if there is no item. -/
def textOr (standard : String) : Option Toml.Item → Option String
  | none => some standard
  | some (.string s) => some s
  | some _ => none

/-- Whether an item is an empty table or an empty list. -/
def isEmptyItem : Toml.Item → Bool
  | .table _ [] => true
  | .array [] => true
  | .tables [] => true
  | _ => false

/-- The policy that an item names, or `standard` if there is no item. The name may also stand alone
in a table, over an empty item. -/
def policyOr (standard : Policy) : Option Toml.Item → Option Policy
  | none => some standard
  | some (.string s) => Policy.ofName? s
  | some (.table _ [(name, item)]) => if isEmptyItem item then Policy.ofName? name else none
  | some _ => none

/-- The settings in the members of a document; `none` if an item has the wrong form. Items without a
meaning here are passed over. -/
def ofMembers? (document : Toml.Members) : Option Settings := do
  let store := document.lookup "store"
  let ingest := document.lookup "ingest"
  let reading := document.lookup "parser"
  let storePath ← match ← member? store "path" 0 with
    | none => some none
    | some item => (textOr "" (some item)).map some
  let logDirectory ← textOr standard.logDirectory (← member? ingest "log_dir" 0)
  let pattern ← textOr standard.pattern (← member? ingest "pattern" 1)
  let policy ← policyOr standard.policy (← member? ingest "policy" 2)
  let outcomeMarker ← textOr standard.outcomeMarker (← member? reading "outcome_marker" 0)
  return { storePath, logDirectory, pattern, policy, outcomeMarker }

/-- The settings that a text writes. -/
def ofText? (text : List Char) : Option Settings :=
  (Toml.document? text).bind ofMembers?

end Settings
end Campaign
