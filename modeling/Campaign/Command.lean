import Campaign.Command.Environment
import Campaign.Command.Invocation
import Campaign.Command.Report
import Campaign.Files.Database

/-!
# Commands

A run of the program: from the arguments, the environment and the files to what is printed, the exit
code and the files afterwards. The arguments are checked first, then the settings; then the database
is opened, and so made if it is not there, before a command does anything else.
-/

namespace Campaign.Command

/-- What a run prints, and its exit code. -/
structure Output where
  code : Nat
  /-- The warnings, in order. They are shown before anything else is printed. -/
  warnings : List String
  printed : String
  err : String
deriving DecidableEq, Repr

namespace Output

/-- All that goes to the standard output: the warnings, each without the time at which it was shown, and
what is printed behind them. -/
def out (o : Output) : String :=
  String.join (o.warnings.map Report.warning) ++ o.printed

/-- A run that succeeds. -/
def success (printed : String) : Output :=
  ⟨0, [], printed, ""⟩

/-- A run that fails before it has printed anything. -/
def failure (f : Failure) : Output :=
  ⟨1, [], "", f.text⟩

/-- A run whose arguments ask for nothing the program does. -/
def usage : Output :=
  ⟨2, [], "", ""⟩

/-- A run that prints the answer to a question, or fails. -/
def ofAnswer {α : Type} (print : α → String) : Except Fault α → Output
  | .ok a => success (print a)
  | .error fault => failure (.ofFault fault)

end Output

/-- The version of the program. -/
def version : String := Report.line "trialdb 0.3.1"

/-- The records that filter options ask for; an option left out is open. -/
def wanted (raw : Setting (Option Int)) (s : Store) : Except Fault (List Record) :=
  (Filter.ofRaw (raw.map (·.getD Filter.wildcard))).bind s.query

/-- What a run of ingestion prints at its end. -/
def ingestOutput (directory pattern : String) (policy : Policy) (r : Ingest.Report) : Output :=
  let warnings := r.failures.map Report.setAside
  match r.ended with
  -- a sample that overruns its columns breaks the run off
  | some (_, .log fault) => ⟨101, warnings, "", fault.message ++ "\n"⟩
  | some (name, fault) =>
    { Output.failure ⟨Ingest.storing name, some fault.message⟩ with warnings }
  | none =>
    if r.tally.total = 0 ∧ r.failures = [] then
      .failure ⟨"no file in " ++ directory ++ " matches '" ++ pattern ++ "*.log'", none⟩
    else
      let printed := Report.tally policy r.tally
      if r.failures = [] then .success printed
      else
        let failed : Failure := ⟨s!"{r.failures.length} file(s) failed to load", none⟩
        ⟨1, warnings, printed, String.join (r.failures.map Report.failure) ++ failed.text⟩

/-- Ingests the logs of a directory. -/
def ingest (marker directory pattern : String) (policy : Policy)
    (entries : Except FileFault (List (FileName × Entry))) (store : Store) : Output × Store :=
  match entries with
  | .error fault =>
    (.failure ⟨Ingest.readingDirectory directory, some fault.message⟩, store)
  | .ok entries =>
    let r := Ingest.directory marker pattern policy entries store
    (ingestOutput directory pattern policy r, r.store)

/-- Does a task on an open store. -/
def perform (e : Environment) (fs : Files) (s : Settings) (store : Store) :
    Task → Output × Store
  | .ingest directory pattern policy =>
    let directory := directory.getD s.logDirectory
    ingest s.outcomeMarker directory (pattern.getD s.pattern) (policy.getD s.policy)
      (fs.list e.workingDirectory (.ofText directory)) store
  | .query raw json =>
    (.ofAnswer (if json then Report.recordsAsJson else Report.records) (wanted raw store), store)
  | .keys => (.ofAnswer Report.catalogue store.catalogue, store)
  | .failed => (.ofAnswer Report.worklist store.failedRecords, store)
  | .summary metric raw => (.ofAnswer (Report.summaries metric) (wanted raw store), store)

/-- Opens the database at a path, does a task on it and closes it. -/
def session (e : Environment) (fs : Files) (s : Settings) (path : String) (task : Task) :
    Output × Files :=
  match fs.openDatabase e.workingDirectory path with
  | (.error fault, fs) =>
    (.failure ⟨"failed to open database " ++ path, some (Fault.database fault).message⟩, fs)
  | (.ok database, fs) =>
    let (output, store) := perform e fs s database.store task
    (output, fs.closeDatabase { database with store })

/-- Removes the database at a path. -/
def remove (e : Environment) (fs : Files) (path : String) : Output × Files :=
  match fs.removeDatabase e.workingDirectory path with
  | (.error fault, fs) => (.failure (.ofFault (.file fault)), fs)
  | (.ok true, fs) => (.success (Report.line ("Removed: " ++ path)), fs)
  | (.ok false, fs) => (.success (Report.line ("Nothing to remove at " ++ path)), fs)

/-- The path of the database: the one that an option names, else the settings, else the usual one.
-/
def databasePath (e : Environment) (s : Settings) (option : Option String) : String :=
  (option.or s.storePath).getD e.standardDatabase

/-- The paths whose files a run looks at, as far as `fs` tells them: which database and which
directory of logs it is may stand in the settings. -/
def reach (e : Environment) (fs : Files) (args : List String) : List Path :=
  (e.settingsFile.map Path.ofText).toList ++
    match Request.ofArguments? args, e.settings fs with
    | some (.action option action), .ok s =>
      let logs := match action with
        | .open (.ingest directory _ _) => [.ofText (directory.getD s.logDirectory)]
        | _ => []
      Files.databasePaths e.workingDirectory (databasePath e s option) ++ logs
    | _, _ => []

/-- Runs the program. -/
def run (e : Environment) (fs : Files) (args : List String) : Output × Files :=
  match Request.ofArguments? args with
  | none => (.usage, fs)
  | some .version => (.success version, fs)
  | some (.action option action) =>
    match e.settings fs with
    | .error f => (.failure f, fs)
    | .ok s =>
      let path := databasePath e s option
      match action with
      | .remove => remove e fs path
      | .config => (.success (Report.settings (e.settingsOrigin fs) path s), fs)
      | .open task => session e fs s path task

end Campaign.Command
