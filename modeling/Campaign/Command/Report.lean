import Campaign.Export
import Campaign.Ingest
import Campaign.Settings
import Campaign.Summary
import Campaign.Text.Padding
import Campaign.Text.Quoted
import Campaign.Value.Places

/-!
# Reports

What the commands print about records, catalogues, runs and settings.
-/

namespace Campaign.Command.Report

/-- A text on a line of its own. -/
def line (s : String) : String :=
  s ++ "\n"

def noTrials : String := line "No trials found."

/-- The columns of a record list, right-aligned. -/
def recordRow (interval ratio unit size rows failed : String) : String :=
  line (" ".intercalate [Text.padStart 8 interval, Text.padStart 6 ratio, Text.padStart 6 unit,
    Text.padStart 8 size, Text.padStart 6 rows, Text.padStart 7 failed])

def recordHeader : String :=
  recordRow "interval" "ratio" "unit" "size" "rows" "failed" ++ line (Text.repeated '-' 46)

def field (v : UInt32) : String :=
  toString v.toNat

/-- A record: how many attempts the trial had, and how many of them failed. -/
def record (r : Record) : String :=
  let (rows, failed) := match r.samples with
    | some m => (toString m.rowCount, toString m.failedAttempts)
    | none => ("-", "trial")
  recordRow (field r.key.interval) (field r.key.ratio) (field r.key.unit) (field r.key.size) rows
    failed

/-- A list of records in ascending order of their keys. -/
def records (rs : List Record) : String :=
  if rs.isEmpty then noTrials
  else recordHeader ++ String.join ((Record.sorted rs).map record)

/-- A list of records as JSON, in ascending order of their keys. -/
def recordsAsJson (rs : List Record) : String :=
  line (String.ofList (Export.records .indented (Record.sorted rs)))

def fields (vs : List UInt32) : String :=
  ", ".intercalate (vs.map field)

def catalogue (c : Catalogue) : String :=
  line ("Traffic intervals: " ++ fields c.interval)
    ++ line ("Receive ratios:    " ++ fields c.ratio)
    ++ line ("Unit sizes:        " ++ fields c.unit)
    ++ line ("Data sizes:        " ++ fields c.size)

/-- The keys of failed trials, ascending, and their number. -/
def worklist (rs : List Record) : String :=
  if rs.isEmpty then line "No failed trials."
  else
    String.join ((Record.sorted rs).map fun r => line r.key.text)
      ++ line s!"{rs.length} trial(s) to re-run."

/-- The columns of a summary: the trial on the left, all else right-aligned. -/
def summaryRow (trial count : String) (values : List String) : String :=
  line (" ".intercalate
    (Text.padEnd 20 trial :: Text.padStart 5 count :: values.map (Text.padStart 12)))

def summaryHeader : String :=
  summaryRow "Trial" "n" ["mean", "std", "min", "max"] ++ line (Text.repeated '-' 78)

/-- The summary of one metric of a trial. -/
def summary (metric : Metric) (r : Record) : String :=
  match r.samples.bind (·.summary? metric) with
  | some s => summaryRow r.key.text (toString s.count)
      ([s.mean, s.deviation, s.least, s.greatest].map (Value.withPlaces 3))
  | none => summaryRow r.key.text "0" ["no data"]

/-- The summaries of one metric, in ascending order of the keys. -/
def summaries (metric : Metric) (rs : List Record) : String :=
  if rs.isEmpty then noTrials
  else summaryHeader ++ String.join ((Record.sorted rs).map (summary metric))

/-- The warning about a log that a run sets aside. -/
def setAside (failure : String × Fault) : String :=
  "skipping " ++ failure.1 ++ ": " ++ failure.2.message

/-- A warning as it is shown, but for the time and the colours. It goes to a terminal, so the
characters that would steer one are kept out. -/
def warning (text : String) : String :=
  line ("WARN trialdb::ingest: " ++ Text.unsteering text)

/-- What came of the records of a run. -/
def tally (policy : Policy) (t : Tally) : String :=
  line (s!"Stored {t.total} trial(s): {t.inserted} new, {t.conflicts} conflicts (policy="
    ++ policy.name ++ s!": {t.ignored} ignored, {t.replaced} replaced, {t.merged} merged).")

/-- A log that a run set aside, for the one who has to mend it. -/
def failure (failure : String × Fault) : String :=
  line ("  failed: " ++ failure.1 ++ ": " ++ failure.2.message)

/-- Where the settings come from, and what they are. -/
def settings (origin databasePath : String) (s : Settings) : String :=
  line ("Config: " ++ origin) ++ line "" ++ line "[store]" ++ line ("  path = " ++ databasePath)
    ++ line "" ++ line "[ingest]" ++ line ("  log_dir = " ++ s.logDirectory)
    ++ line ("  pattern = " ++ Text.quoted s.pattern) ++ line ("  policy = " ++ s.policy.name)
    ++ line "" ++ line "[parser]" ++ line ("  outcome_marker = " ++ Text.quoted s.outcomeMarker)

end Campaign.Command.Report
