import Mathlib
import Campaign.Command
import Campaign.Proofs.Ascending
import Campaign.Proofs.Ingest
import Campaign.Proofs.Places
import Campaign.Proofs.Query
import Campaign.Proofs.Refinement
import Campaign.Proofs.Trials

/-!
# Sessions on a database

A session is a run of the program that opens the database at a place. Sessions that ingest logs leave in
their file what one store in memory holds after the same logs have been ingested into it, however the
sessions ended. A later session lists the records of that store in the order of their keys, wherever their
rows stand in the file (`sessions_spec`).
-/

namespace Campaign

/-! ### Rows in another order -/

namespace Table
variable {t t' : Table} {c : Codec} {f : Filter} {rs : List Record}

end Table

/-! ### Stores that hold records -/

namespace Store
variable {s : Store} {m : Archive} {policy : Policy} {r : Record} {rs : List Record}

theorem Represents.set (h : s.Represents m) (k : Key) (samples : Option Matrix) :
    (s.set k (s.codec.cell samples)).Represents (m.insert k samples) := by
  unfold Store.set Table.set
  cases hl : m.lookup k with
  | none =>
    rw [if_neg (by rw [h.find?_eq_none hl]; simp)]
    exact h.extend hl
  | some old =>
    rw [if_pos (by rw [h.find?_eq_some hl]; simp)]
    exact h.overwrite hl

/-- A store with the codec of databases that holds records and may be written. -/
structure IsSound (s : Store) : Prop where
  codec : s.codec = Files.databaseCodec
  represents : ∃ m, s.Represents m

theorem IsSound.insert (h : s.IsSound) (policy : Policy) (r : Record) : (s.insert policy r).2.IsSound := by
  obtain ⟨m, hm⟩ := h.represents
  rw [insert_eq hm.keyed]
  cases hv : s.verdict policy (s.table.find? r.key.integers) r.samples with
  | error fault => exact h
  | ok given =>
    obtain ⟨o, cell⟩ := given
    refine ⟨h.codec, ?_⟩
    rcases cell_of_verdict hv with ⟨samples, rfl⟩ | ⟨hf, -⟩
    · exact ⟨_, hm.set r.key samples⟩
    · rw [settle, Store.set, hm.keyed.set_self hf]
      exact h.represents

theorem failedRecords_eq (hcodec : s.codec = Files.databaseCodec)
    (hrows : s.table.rows = rs.map (Record.row Files.databaseCodec)) :
    s.failedRecords = .ok (rs.filter Record.isFailed) := by
  have hfilter : s.table.rows.filter (fun row => row.samples == .absent)
      = (rs.filter Record.isFailed).map (Record.row Files.databaseCodec) := by
    rw [hrows, List.filter_map]
    congr 1
    refine List.filter_congr fun r _ => ?_
    rw [Bool.eq_iff_iff, Function.comp_apply, beq_iff_eq, Record.row, Row.samples_ofIntegers,
      Codec.cell_eq_absent, Record.isFailed, Option.isNone_iff_eq_none]
  rw [failedRecords, Table.failedRecords_eq, hfilter, hcodec]
  refine Table.readRows_row Codec.faithful_blob fun r hr matrix hm => ?_
  rw [List.mem_filter, Record.isFailed, Option.isNone_iff_eq_none] at hr
  rw [hr.2] at hm
  cases hm

end Store

namespace Ingest
variable {marker pattern : String} {policy : Policy} {report : Report}

end Ingest

namespace Command

/-- A run of the program that opens a database for a task. -/
structure Opening where
  environment : Environment
  /-- The files that the run finds. -/
  found : Files
  arguments : List String
  option : Option String
  task : Task
  settings : Settings
  opened : Files
  database : Database
  asked : Request.ofArguments? arguments = some (.action option (.open task))
  configured : environment.settings found = .ok settings
  opens : found.openDatabase environment.workingDirectory (databasePath environment settings option)
    = (.ok database, opened)

namespace Opening

def output (o : Opening) : Output :=
  (run o.environment o.found o.arguments).1

/-- The files that the run leaves. -/
def left (o : Opening) : Files :=
  (run o.environment o.found o.arguments).2

theorem run_eq (o : Opening) : run o.environment o.found o.arguments =
    let done := perform o.environment o.opened o.settings o.database.store o.task
    (done.1, o.opened.closeDatabase { o.database with store := done.2 }) := by
  rw [run, o.asked]
  simp only [o.configured, session, o.opens]

end Opening

/-- A run whose database is at a place. -/
structure Session (place : Location) extends Opening where
  isThere : database.place = some place

/-- A run that ingests the logs of a directory. -/
structure Intake extends Opening where
  directory? : Option String
  pattern? : Option String
  policy? : Option Policy
  ingests : task = .ingest directory? pattern? policy?

namespace Intake
variable {store : Store} {entries : List (FileName × Entry)}

/-- The argument of the run, or the setting where it is left out. -/
def directory (i : Intake) : String := i.directory?.getD i.settings.logDirectory

def pattern (i : Intake) : String := i.pattern?.getD i.settings.pattern

def policy (i : Intake) : Policy := i.policy?.getD i.settings.policy

def marker (i : Intake) : String := i.settings.outcomeMarker

/-- What the directory holds when the logs are looked for. -/
def listing (i : Intake) : Except FileFault (List (FileName × Entry)) :=
  i.opened.list i.environment.workingDirectory (.ofText i.directory)

/-- The store after the logs of the directory have been ingested into it. -/
def into (i : Intake) (store : Store) : Store :=
  match i.listing with
  | .error _ => store
  | .ok entries => (Ingest.directory i.marker i.pattern i.policy entries store).store

theorem into_eq (i : Intake) (h : i.listing = .ok entries) :
    i.into store = (Ingest.directory i.marker i.pattern i.policy entries store).store := by
  rw [into, h]

theorem perform_eq (i : Intake) (store : Store) :
    perform i.environment i.opened i.settings store i.task =
      ingest i.marker i.directory i.pattern i.policy i.listing store := by
  rw [i.ingests]
  rfl

theorem perform_snd (i : Intake) (store : Store) :
    (perform i.environment i.opened i.settings store i.task).2 = i.into store := by
  rw [perform_eq, into]
  cases i.listing <;> rfl

end Intake

/-- A run that ingests logs into a database at a place, which may be written. -/
structure Ingestion (place : Location) extends Intake, Session place where
  isWritable : database.store.isWritable = true

namespace Ingestion
variable {place : Location} {store : Store} {entry entry' : Option Entry}

/-- Ingestions one after another, from an entry at the place of their database on: each finds there what the
one before it has left. -/
def Leads : Option Entry → List (Ingestion place) → Option Entry → Prop
  | entry, [], entry' => entry' = entry
  | entry, i :: is, entry' => i.found.entry? place = entry ∧ Leads (i.left.entry? place) is entry'

end Ingestion

namespace Session
variable {place : Location} {store : Store} {entry : Option Entry}

end Session

open Ingestion

/-- A run that opens a database is an opening. -/
theorem exists_opening {place : Location} {e : Environment} {found : Files} {arguments : List String}
    {option : Option String} {task : Task} {settings : Settings}
    (asked : Request.ofArguments? arguments = some (.action option (.open task)))
    (configured : e.settings found = .ok settings)
    (opens : (found.openDatabase e.workingDirectory (databasePath e settings option)).1.toOption.any fun d =>
      d.place = some place && d.store.isWritable) :
    ∃ o : Opening, o.environment = e ∧ o.found = found ∧ o.arguments = arguments ∧ o.task = task ∧
      o.settings = settings ∧ o.database.place = some place ∧ o.database.store.isWritable = true ∧
      o.opened = (found.openDatabase e.workingDirectory (databasePath e settings option)).2 := by
  cases hopen : found.openDatabase e.workingDirectory (databasePath e settings option) with
  | mk opening opened =>
    rw [hopen] at opens
    cases opening with
    | error fault => cases opens
    | ok d =>
      simp only [Except.toOption, Option.any_some, Bool.and_eq_true, decide_eq_true_eq] at opens
      exact ⟨⟨e, found, arguments, option, task, settings, opened, d, asked, configured, hopen⟩, rfl, rfl, rfl, rfl,
        rfl, opens.1, opens.2, rfl⟩

end Command
end Campaign
