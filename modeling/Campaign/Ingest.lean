import Campaign.Files.Image
import Campaign.Log
import Campaign.Store.Insert

/-!
# Ingesting logs

The logs of a directory are read in the order of their names, and the record of each is inserted
before the next is read. A log with a bad name or a bad text, or one that cannot be read, is set aside
and the run goes on; a fault of the store, or a sample that overruns its columns, ends the run where it
is.
-/

namespace Campaign

/-- A log as a directory holds it. -/
structure LogFile where
  name : String
  /-- What a reader gets of its file. -/
  contents : Except FileFault (List UInt8)
deriving Repr

namespace LogFile

/-- The log in an entry of a directory: a file with a text for its name, which starts with `pattern`
and ends like the name of a log. -/
def ofEntry? (pattern : String) (entry : FileName × Entry) : Option LogFile := do
  let contents ← entry.2.contents?
  let text ← Text.ofUtf8? entry.1
  if pattern.toList.isPrefixOf text && Key.logEnding.isSuffixOf text then
    return ⟨String.ofList text, contents⟩
  else none

/-- The record of a log: the key from its name, the samples from its text. The name is looked at before
the file is read. -/
def record (marker : String) (f : LogFile) : Except Fault Record :=
  match Key.ofLogName? f.name with
  | none => .error (.logName f.name)
  | some key =>
    match f.contents with
    | .error cause => .error (.file cause)
    | .ok bytes =>
      match Log.read marker (Text.ofUtf8Lenient bytes) with
      | .error fault => .error (.log fault)
      | .ok samples => .ok ⟨key, samples⟩

end LogFile

namespace Ingest

/-- The logs among the entries of a directory, in ascending byte order of their names. -/
def matchingLogs (pattern : String) (entries : List (FileName × Entry)) : List LogFile :=
  (entries.mergeSort fun a b => a.1 ≤ b.1).filterMap (LogFile.ofEntry? pattern)

/-- What a run has done so far. -/
structure Report where
  tally : Tally
  /-- The logs set aside, by their names, with the fault of each. -/
  failures : List (String × Fault)
  /-- The log that ended the run, if one did, and its fault. -/
  ended : Option (String × Fault)
  store : Store

namespace Report

/-- The report of a run that starts on a store. -/
def start (s : Store) : Report :=
  ⟨{}, [], none, s⟩

end Report

/-- Whether a fault in a log ends the run. -/
def endsRun : Fault → Bool
  | .log .overrun => true
  | _ => false

/-- Ingests logs one after another. -/
def logs (marker : String) (policy : Policy) : Report → List LogFile → Report
  | report, [] => report
  | report, f :: fs =>
    match f.record marker with
    | .error fault =>
      if endsRun fault then { report with ended := some (f.name, fault) }
      else logs marker policy { report with failures := report.failures ++ [(f.name, fault)] } fs
    | .ok record =>
      match report.store.insert policy record with
      | (.error fault, store) => { report with ended := some (f.name, fault), store }
      | (.ok outcome, store) =>
        logs marker policy { report with tally := report.tally.add outcome, store } fs

/-- Ingests the logs among the entries of a directory into a store. -/
def directory (marker pattern : String) (policy : Policy) (entries : List (FileName × Entry))
    (s : Store) : Report :=
  logs marker policy (.start s) (matchingLogs pattern entries)

/-- What was being done when a directory could not be listed. -/
def readingDirectory (path : String) : String :=
  "reading directory " ++ path

/-- What was being done when a record could not be stored. -/
def storing (name : String) : String :=
  "storing " ++ name

end Ingest
end Campaign
