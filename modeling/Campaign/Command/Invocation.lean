import Campaign.Metric
import Campaign.Policy
import Campaign.Setting
import Campaign.Text.Integer

/-!
# Invocations

What the arguments of the command line ask for. An option's value is the next argument, follows `=`,
or follows the letter of a short option directly. Options may not repeat, and `--` ends them.
-/

namespace Campaign.Command

/-- What an option is about. -/
inductive Topic where
  | version
  | database
  | pattern
  | policy
  | wanted (p : Parameter)
  | json
  | metric
deriving DecidableEq, Repr

/-- How an option is written. -/
structure OptionForm where
  topic : Topic
  long : String
  short : Option Char
  takesValue : Bool
  /-- Whether an argument that starts like an option can be its value. -/
  takesAny : Bool
deriving DecidableEq, Repr

/-- Whether an option can have a value. -/
def Topic.accepts (value : String) : Topic → Bool
  | version | json | pattern => true
  | database => value ≠ ""
  | policy => (Policy.ofName? value).isSome
  | wanted _ => (Text.integer? value.toList).isSome
  | metric => (Metric.ofName? value).isSome

/-- The names of the commands. -/
inductive Name where
  | ingest
  | query
  | keys
  | failed
  | summary
  | remove
  | config
deriving DecidableEq, Repr

namespace Name

def ofText? : String → Option Name
  | "ingest" => some ingest
  | "query" => some query
  | "keys" => some keys
  | "failed" => some failed
  | "summary" => some summary
  | "remove" => some remove
  | "config" => some config
  | _ => none

end Name

namespace OptionForm

def database : OptionForm := ⟨.database, "db", none, true, false⟩

def version : OptionForm := ⟨.version, "version", some 'V', false, false⟩

def json : OptionForm := ⟨.json, "json", none, false, false⟩

def metric : OptionForm := ⟨.metric, "metric", some 'm', true, false⟩

/-- The options of a filter. Their values may be negative. -/
def filter : List OptionForm :=
  [⟨.wanted .interval, "interval", some 'i', true, true⟩,
    ⟨.wanted .ratio, "ratio", some 'r', true, true⟩,
    ⟨.wanted .unit, "unit", some 'u', true, true⟩,
    ⟨.wanted .size, "size", some 's', true, true⟩]

/-- The options before a command. -/
def general : List OptionForm := [database, version]

/-- The options after a command. -/
def ofCommand : Name → List OptionForm
  | .ingest => [database, ⟨.pattern, "pattern", some 'p', true, false⟩,
      ⟨.policy, "policy", none, true, false⟩]
  | .query => [database, json] ++ filter
  | .summary => [database, metric] ++ filter
  | .keys | .failed | .remove | .config => [database]

end OptionForm

/-- What one argument is. -/
inductive Argument where
  /-- The end of the options. -/
  | ending
  /-- An option with its value, or one that takes none. -/
  | whole (form : OptionForm) (value : String)
  /-- An option whose value is the next argument. -/
  | start (form : OptionForm)
  | word
  | bad
deriving DecidableEq, Repr

namespace Argument

/-- A long option, from behind its hyphens. -/
def ofLong (forms : List OptionForm) (s : List Char) : Argument :=
  let name := String.ofList (s.takeWhile (· ≠ '='))
  match forms.find? fun form => form.long = name, s.dropWhile (· ≠ '=') with
  | none, _ => bad
  | some form, [] => if form.takesValue then start form else whole form ""
  | some form, _ :: value => if form.takesValue then whole form (String.ofList value) else bad

/-- A short option: its letter and what follows it. Whatever follows the letter that asks for the
version is passed over, since nothing counts any more. -/
def ofShort (forms : List OptionForm) (letter : Char) (s : List Char) : Argument :=
  match forms.find? fun form => form.short = some letter, s with
  | none, _ => bad
  | some form, [] => if form.takesValue then start form else whole form ""
  | some form, c :: rest =>
    if form.takesValue then whole form (String.ofList (if c = '=' then rest else c :: rest))
    else if form.topic = .version then whole form ""
    else bad

def ofText (forms : List OptionForm) (s : String) : Argument :=
  match s.toList with
  | ['-', '-'] => ending
  | '-' :: '-' :: rest => ofLong forms rest
  | '-' :: letter :: rest => ofShort forms letter rest
  | _ => word

end Argument

/-- Whether an argument starts like an option. A lone hyphen does not. -/
def startsLikeOption (s : String) : Bool :=
  s.startsWith "-" && s ≠ "-"

/-- The options and words of some arguments. -/
structure Scanned where
  options : List (Topic × String)
  words : List String
  /-- The arguments behind the first word, where the scan stops there. -/
  rest : List String
deriving Repr

namespace Scanned

def empty : Scanned := ⟨[], [], []⟩

/-- Adds an option; it may not have been given before. -/
def add (s : Scanned) (form : OptionForm) (value : String) : Option Scanned :=
  if (s.options.lookup form.topic).isSome || !form.topic.accepts value then none
  else some { s with options := s.options ++ [(form.topic, value)] }

end Scanned

/-- Scans arguments for options of the given forms; `pending` is an option that still wants its
value. With `toCommand` the scan stops at the first word, and where a version is asked for. -/
def scan (forms : List OptionForm) (toCommand : Bool) :
    Option OptionForm → Scanned → List String → Option Scanned
  | none, s, [] => some s
  | some _, _, [] => none
  | some form, s, arg :: args => do
    if form.takesAny || !startsLikeOption arg then
      scan forms toCommand none (← s.add form arg) args
    else none
  | none, s, arg :: args =>
    match Argument.ofText forms arg with
    | .ending => if toCommand then none else some { s with words := s.words ++ args }
    | .whole form value => do
      let s ← s.add form value
      if form.topic = .version then some s else scan forms toCommand none s args
    | .start form => scan forms toCommand (some form) s args
    | .word =>
      if toCommand then some { s with words := [arg], rest := args }
      else scan forms toCommand none { s with words := s.words ++ [arg] } args
    | .bad => none

/-- What a command is to do with the table of the database. -/
inductive Task where
  | ingest (directory pattern : Option String) (policy : Option Policy)
  | query (wanted : Setting (Option Int)) (json : Bool)
  | keys
  | failed
  | summary (metric : Metric) (wanted : Setting (Option Int))
deriving DecidableEq, Repr

/-- What a command is to do. -/
inductive Action where
  /-- Open the database for a task. -/
  | open (task : Task)
  /-- Remove the database. -/
  | remove
  /-- Show the settings. -/
  | config
deriving DecidableEq, Repr

/-- What the arguments ask for. -/
inductive Request where
  | version
  | action (database : Option String) (action : Action)
deriving DecidableEq, Repr

namespace Request

/-- The integers that filter options give. -/
def wanted (s : Scanned) : Setting (Option Int) :=
  .ofFn fun p => (s.options.lookup (.wanted p)).bind fun value => Text.integer? value.toList

/-- The action of a command with the options and words behind it. Only the command that ingests
takes a word, the directory. -/
def action? (name : Name) (s : Scanned) : Option Action :=
  let pattern := s.options.lookup .pattern
  let policy := (s.options.lookup .policy).bind Policy.ofName?
  let metric := (s.options.lookup .metric).bind Metric.ofName?
  match name, s.words with
  | .ingest, [] => some (.open (.ingest none pattern policy))
  | .ingest, [directory] =>
    if directory = "" then none else some (.open (.ingest (some directory) pattern policy))
  | .query, [] => some (.open (.query (wanted s) (s.options.lookup .json).isSome))
  | .keys, [] => some (.open .keys)
  | .failed, [] => some (.open .failed)
  | .summary, [] => metric.map fun m => .open (.summary m (wanted s))
  | .remove, [] => some .remove
  | .config, [] => some .config
  | _, _ => none

/-- Reads arguments; `none` if no request is written like that. The database named behind a command
counts more than one named before it. -/
def ofArguments? (args : List String) : Option Request := do
  let before ← scan OptionForm.general true none .empty args
  if (before.options.lookup .version).isSome then return .version
  let name ← before.words.head?.bind Name.ofText?
  let behind ← scan (OptionForm.ofCommand name) false none .empty before.rest
  let database := (behind.options.lookup .database).or (before.options.lookup .database)
  return .action database (← action? name behind)

end Request
end Campaign.Command
