import Mathlib
import Campaign.Proofs.Again
import Campaign.Proofs.Interruption
import Campaign.Proofs.Selection
import Campaign.Proofs.Session

/-!
# What the exit code of an ingestion says

A run that ingests logs exits with 0 if the directory can be listed, has a log, and each of its logs is
well-formed and stored. Where nothing but malformed logs keeps it from that, it has stored all the others and
counts them, and it names each malformed log once (`exitCode_spec`).
-/

namespace Campaign

namespace LogFile
variable {marker : String} {f : LogFile}

/-- Whether the name of a log has a key, its file can be read and its text is one of a log. -/
def isWellFormed (marker : String) (f : LogFile) : Bool :=
  (Key.ofLogName? f.name).isSome && (f.reading marker).isOk

theorem failure?_eq_none_iff : f.failure? marker = none ↔ f.isWellFormed marker = true := by
  unfold isWellFormed failure?
  cases Key.ofLogName? f.name with
  | none => simp
  | some key => cases f.reading marker <;> simp [Except.isOk, Except.toBool]

theorem isWellFormed_of_failure? {failure : String × Fault} (h : f.failure? marker = some failure) :
    f.isWellFormed marker = false := by
  rw [Bool.eq_false_iff, Ne, ← failure?_eq_none_iff, h]
  exact Option.some_ne_none failure

/-- The logs that are reported are the malformed ones. -/
theorem names_failures (files : List LogFile) : (files.filterMap (failure? marker)).map Prod.fst
    = (files.filter fun f => !f.isWellFormed marker).map name := by
  induction files with
  | nil => rfl
  | cons f files ih =>
    rcases f.record_cases marker with ⟨r, -, -, hnone⟩ | ⟨fault, -, -, hsome⟩
    · have hf : f.isWellFormed marker = true := failure?_eq_none_iff.1 hnone
      rw [List.filterMap_cons_none hnone, List.filter_cons_of_neg (by simp [hf]), ih]
    · have hf : f.isWellFormed marker = false := isWellFormed_of_failure? hsome
      rw [List.filterMap_cons_some hsome, List.filter_cons_of_pos (by simp [hf]), List.map_cons, List.map_cons, ih]

theorem filterMap_failure?_ne_nil {files : List LogFile} (h : ∃ f ∈ files, f.isWellFormed marker = false) :
    files.filterMap (failure? marker) ≠ [] := by
  obtain ⟨f, hf, hfalse⟩ := h
  intro hnil
  have hgood := failure?_eq_none_iff.1 (List.filterMap_eq_nil_iff.1 hnil f hf)
  rw [hfalse] at hgood
  cases hgood

theorem length_records (files : List LogFile) :
    (files.filterMap (record? marker)).length = (files.filter (isWellFormed marker)).length := by
  have hreported : (files.filterMap (failure? marker)).length
      = (files.filter fun f => !f.isWellFormed marker).length := by
    simpa using congrArg List.length (names_failures files)
  have hboth : (files.filterMap (record? marker)).length + (files.filterMap (failure? marker)).length
      = files.length := Ingest.length_records_add_failures files
  have hsplit := List.length_eq_length_filter_add (l := files) (isWellFormed marker)
  omega

end LogFile

namespace Store
variable {s s' : Store} {policy : Policy} {r : Record} {rs : List Record} {o : Outcome} {outcomes : List Outcome}

/-- A write changes nothing of a store but its table. -/
theorem write_eq_withTable (h : s.write policy r = .ok (o, s')) : s' = { s with table := s'.table } := by
  unfold write at h
  split at h
  · cases h
  · obtain ⟨s₁, hchange, he⟩ := map_eq_ok.1 h
    obtain ⟨-, rfl⟩ := Prod.mk.inj he
    unfold change at hchange
    split_ifs at hchange
    split at hchange
    · cases hchange
    · obtain rfl := Except.ok.inj hchange
      rfl

theorem writeAll_eq_withTable (h : s.writeAll policy rs = .ok (outcomes, s')) :
    s' = { s with table := s'.table } := by
  induction rs generalizing s outcomes with
  | nil =>
    obtain ⟨-, rfl⟩ := writeAll_nil_eq_ok.1 h
    rfl
  | cons r rs ih =>
    obtain ⟨o, s₁, os, hr, hrest, -⟩ := writeAll_cons_eq_ok.1 h
    rw [ih hrest, write_eq_withTable hr]

/-- Each record that is written has a row then. -/
theorem find?_of_writeAll (hk : s.table.Keyed) (h : s.writeAll policy rs = .ok (outcomes, s')) (hr : r ∈ rs) :
    s'.table.find? r.key.integers ≠ none := by
  have htrial := (writeAll_spec hk h).trials r.key
  obtain ⟨cell, -, hcell, -⟩ := stored_of_verdicts (samplesOf_ne_nil.2 ⟨r, hr, rfl⟩) htrial
  rw [hcell]
  exact Option.some_ne_none cell

end Store

namespace Ingest
open Store
variable {marker pattern : String} {policy : Policy} {entries : List (FileName × Entry)} {s s' : Store}
  {outcomes : List Outcome} {f : LogFile}

theorem passes_iff : Passes marker f ↔ f.record marker ≠ .error (.log .overrun) := by
  constructor
  · intro h hr
    cases h _ hr
  · intro h fault hr
    by_contra hends
    obtain rfl := eq_overrun_of_endsRun (Bool.not_eq_false _ ▸ hends)
    exact h hr

theorem exists_record_of_isWellFormed (hf : f ∈ matchingLogs pattern entries) (h : f.isWellFormed marker = true) :
    ∃ r ∈ records marker pattern entries, f.record marker = .ok r := by
  rcases f.record_cases marker with ⟨r, hr, hr?, -⟩ | ⟨fault, -, -, hsome⟩
  · exact ⟨r, List.mem_filterMap.2 ⟨f, hf, hr?⟩, hr⟩
  · rw [LogFile.isWellFormed_of_failure? hsome] at h
    cases h

theorem length_of_insertEach (h : s.insertEach policy (records marker pattern entries) = (.ok outcomes, s')) :
    outcomes.length = ((matchingLogs pattern entries).filter (LogFile.isWellFormed marker)).length := by
  rw [length_writeAll (insertEach_eq_ok.1 h), records, LogFile.length_records]

/-- A run that has something to show and nothing to report has stored every log. -/
theorem directory_wellFormed :
    (directory marker pattern policy entries s).ended = none ∧
        (directory marker pattern policy entries s).failures = [] ∧
        (directory marker pattern policy entries s).tally.total ≠ 0 ↔
      matchingLogs pattern entries ≠ [] ∧ (∀ f ∈ matchingLogs pattern entries, f.isWellFormed marker = true) ∧
        ∃ outcomes s', s.insertEach policy (records marker pattern entries) = (.ok outcomes, s') := by
  constructor
  · rintro ⟨hended, hfailures, htotal⟩
    obtain ⟨outcomes, hrecords, htally, hreported⟩ := logs_spec hended
    have hnone : (matchingLogs pattern entries).filterMap (LogFile.failure? marker) = [] :=
      hreported.symm.trans hfailures
    refine ⟨fun hnil => htotal ?_, fun f hf => ?_, outcomes, _, hrecords⟩
    · rw [directory, hnil]
      rfl
    · exact LogFile.failure?_eq_none_iff.1 (List.filterMap_eq_nil_iff.1 hnone f hf)
  · rintro ⟨hlogs, hgood, outcomes, s', hw⟩
    have hnone : ∀ f ∈ matchingLogs pattern entries, f.failure? marker = none := fun f hf =>
      LogFile.failure?_eq_none_iff.2 (hgood f hf)
    have htotal := (Tally.total_ofOutcomes outcomes).trans (length_of_insertEach hw)
    rw [List.filter_eq_self.2 hgood] at htotal
    rw [directory_of_writeAll (fun f hf => passes_of_failure?_eq_none (hnone f hf)) (insertEach_eq_ok.1 hw)]
    refine ⟨rfl, List.filterMap_eq_nil_iff.2 hnone, ?_⟩
    dsimp only
    rw [htotal]
    exact fun hzero => hlogs (List.length_eq_zero_iff.1 hzero)

theorem nodup_names (h : (entries.map Prod.fst).Nodup) :
    ((matchingLogs pattern entries).map LogFile.name).Nodup := by
  have hbytes : ((matchingLogs pattern entries).map fun f => Text.toUtf8 f.name).Nodup :=
    (pairwise_matchingLogs h).imp fun {a b} hlt (he : a = b) => List.lt_irrefl b (he ▸ hlt)
  rw [← Function.comp_def, ← List.map_map] at hbytes
  exact hbytes.of_map

end Ingest

namespace Command
open Ingest

theorem code_ingestOutput {directory pattern : String} {policy : Policy} {r : Ingest.Report} :
    (ingestOutput directory pattern policy r).code = 0 ↔ r.ended = none ∧ r.failures = [] ∧ r.tally.total ≠ 0 := by
  unfold ingestOutput
  dsimp only
  split
  next hended => simp [hended]
  next hended => simp [hended, Output.failure]
  next hended =>
    split_ifs with hnothing hfailures
    · simp [hnothing, Output.failure]
    · simp [hended, hfailures, Output.success, show r.tally.total ≠ 0 from fun h => hnothing ⟨h, hfailures⟩]
    · simp [hfailures]

/-- The line about the records of a run, from what came of each. -/
theorem tally_ofOutcomes (policy : Policy) (outcomes : List Outcome) :
    let count (o : Outcome) := outcomes.count o
    Report.tally policy (.ofOutcomes outcomes) =
      "Stored " ++ toString outcomes.length ++ " trial(s): " ++ toString (count .inserted) ++ " new, "
        ++ toString (count .ignored + count .replaced + count .merged) ++ " conflicts (policy=" ++ policy.name ++ ": "
        ++ toString (count .ignored) ++ " ignored, " ++ toString (count .replaced) ++ " replaced, "
        ++ toString (count .merged) ++ " merged)." ++ "\n" := by
  intro count
  rw [Report.tally, Tally.total_ofOutcomes, Tally.ofOutcomes_eq]
  simp only [Report.line, Tally.conflicts, count, String.append_assoc]
  rfl

namespace Intake

theorem output_eq (i : Intake) :
    i.output = (ingest i.marker i.directory i.pattern i.policy i.listing i.database.store).1 := by
  rw [Opening.output, Opening.run_eq, i.perform_eq]

theorem nodup_listing (i : Intake) (hd : i.found.Distinct) {entries : List (FileName × Entry)}
    (h : i.listing = .ok entries) : (entries.map Prod.fst).Nodup := by
  have hopened : (i.found.openDatabase i.environment.workingDirectory
      (databasePath i.environment i.settings i.option)).2.Distinct := hd.openDatabase _
  rw [i.opens] at hopened
  exact Files.nodup_list hopened h

theorem code_eq_zero (i : Intake) : i.output.code = 0 ↔ ∃ entries, i.listing = .ok entries ∧
    matchingLogs i.pattern entries ≠ [] ∧ (∀ f ∈ matchingLogs i.pattern entries, f.isWellFormed i.marker = true) ∧
    ∃ outcomes s', i.database.store.insertEach i.policy (records i.marker i.pattern entries) = (.ok outcomes, s') := by
  rw [output_eq]
  cases hl : i.listing with
  | error fault => simp [ingest, Output.failure]
  | ok entries =>
    simp only [ingest, code_ingestOutput, directory_wellFormed, Except.ok.injEq, exists_eq_left']

/-- A run that every log passes and whose records are all taken leaves the store with them. -/
theorem left_eq (i : Intake) {entries : List (FileName × Entry)} {outcomes : List Outcome} {stored : Store}
    (hl : i.listing = .ok entries) (hp : ∀ f ∈ matchingLogs i.pattern entries, Passes i.marker f)
    (hw : i.database.store.insertEach i.policy (records i.marker i.pattern entries) = (.ok outcomes, stored)) :
    i.left = i.opened.closeDatabase { i.database with store := stored } := by
  rw [Opening.left, Opening.run_eq]
  dsimp only
  rw [i.perform_snd, i.into_eq hl, directory_of_writeAll hp (Store.insertEach_eq_ok.1 hw)]

theorem entry?_left (i : Intake) {place : Location} {stored : Store} {rs : List Record} {outcomes : List Outcome}
    (hplace : i.database.place = some place) (hwritable : i.database.store.isWritable = true)
    (hw : i.database.store.writeAll i.policy rs = .ok (outcomes, stored))
    (hleft : i.left = i.opened.closeDatabase { i.database with store := stored }) :
    i.left.entry? place = some (.file (.table stored.table i.database.system.form)) := by
  have hne : place ≠ [] := (Files.openDatabase_spec i.opens hplace).1
  have hkept : stored.isWritable = true := by
    rw [Store.writeAll_eq_withTable hw]
    exact hwritable
  rw [hleft]
  exact Files.entry?_closeDatabase (d := { i.database with store := stored }) hplace hne hkept

/-- Such a run reports the logs that are malformed, if there are any, and counts the others. -/
theorem output_eq_of_malformed (i : Intake) {entries : List (FileName × Entry)} {outcomes : List Outcome}
    {stored : Store} (hl : i.listing = .ok entries)
    (hp : ∀ f ∈ matchingLogs i.pattern entries, Passes i.marker f)
    (hw : i.database.store.insertEach i.policy (records i.marker i.pattern entries) = (.ok outcomes, stored))
    (hm : (matchingLogs i.pattern entries).filterMap (LogFile.failure? i.marker) ≠ []) :
    let malformed := (matchingLogs i.pattern entries).filterMap (LogFile.failure? i.marker)
    i.output = ⟨1, malformed.map fun m => "skipping " ++ m.1 ++ ": " ++ m.2.message,
      Report.tally i.policy (.ofOutcomes outcomes),
      String.join (malformed.map fun m => "  failed: " ++ m.1 ++ ": " ++ m.2.message ++ "\n")
        ++ ("Error: " ++ s!"{malformed.length} file(s) failed to load" ++ "\n")⟩ := by
  intro malformed
  have hreport : Ingest.directory i.marker i.pattern i.policy entries i.database.store
      = ⟨.ofOutcomes outcomes, malformed, none, stored⟩ := directory_of_writeAll hp (Store.insertEach_eq_ok.1 hw)
  have hline : (fun m : String × Fault => "  failed: " ++ m.1 ++ ": " ++ m.2.message ++ "\n") = Report.failure := by
    funext m
    simp only [Report.failure, Report.line, String.append_assoc]
  rw [output_eq, hl]
  simp only [ingest, hreport, ingestOutput, malformed, if_neg hm, if_neg fun h : _ ∧ _ => hm h.2, hline]
  rfl

end Intake

/-- A run that ingests logs exits with 0 if and only if the directory can be listed, has a log, and every log
of it is well-formed and stored. Where no log overruns its columns and the store takes all that are
well-formed, the run leaves them stored, whatever the others are; and if some are malformed, it fails, counts
the well-formed ones and no others, and names each malformed one once, as long as each place of the files that
it finds has one entry at most. -/
theorem exitCode_spec (i : Intake) :
    (i.output.code = 0 ↔ ∃ entries, i.listing = .ok entries ∧ matchingLogs i.pattern entries ≠ [] ∧
      (∀ f ∈ matchingLogs i.pattern entries, f.isWellFormed i.marker = true) ∧
      ∃ outcomes stored,
        i.database.store.insertEach i.policy (records i.marker i.pattern entries) = (.ok outcomes, stored)) ∧
    ∀ entries outcomes stored, i.listing = .ok entries →
      let logs := matchingLogs i.pattern entries
      let wellFormed := logs.filter (LogFile.isWellFormed i.marker)
      let malformed := logs.filterMap (LogFile.failure? i.marker)
      let count (o : Outcome) := outcomes.count o
      (∀ f ∈ logs, f.record i.marker ≠ .error (.log .overrun)) →
      i.database.store.insertEach i.policy (records i.marker i.pattern entries) = (.ok outcomes, stored) →
      (∀ f ∈ logs, f.isWellFormed i.marker = true → ∃ r ∈ records i.marker i.pattern entries,
        f.record i.marker = .ok r ∧
          (i.database.store.table.Keyed → stored.table.find? r.key.integers ≠ none)) ∧
      i.left = i.opened.closeDatabase { i.database with store := stored } ∧
      (∀ place, i.database.place = some place → i.database.store.isWritable = true →
        i.left.entry? place = some (.file (.table stored.table i.database.system.form))) ∧
      ((∃ f ∈ logs, f.isWellFormed i.marker = false) →
        i.output = ⟨1, malformed.map fun m => "skipping " ++ m.1 ++ ": " ++ m.2.message,
          "Stored " ++ toString wellFormed.length ++ " trial(s): " ++ toString (count .inserted) ++ " new, "
            ++ toString (count .ignored + count .replaced + count .merged) ++ " conflicts (policy="
            ++ i.policy.name ++ ": " ++ toString (count .ignored) ++ " ignored, " ++ toString (count .replaced)
            ++ " replaced, " ++ toString (count .merged) ++ " merged)." ++ "\n",
          String.join (malformed.map fun m => "  failed: " ++ m.1 ++ ": " ++ m.2.message ++ "\n")
            ++ ("Error: " ++ s!"{malformed.length} file(s) failed to load" ++ "\n")⟩ ∧
        outcomes.length = wellFormed.length ∧
        malformed.map Prod.fst = (logs.filter fun f => !f.isWellFormed i.marker).map LogFile.name ∧
        (i.found.Distinct → (malformed.map Prod.fst).Nodup)) := by
  refine ⟨i.code_eq_zero, ?_⟩
  intro entries outcomes stored hl logs wellFormed malformed count hp hw
  have hpasses : ∀ f ∈ logs, Passes i.marker f := fun f hf => passes_iff.2 (hp f hf)
  have hwrites := Store.insertEach_eq_ok.1 hw
  have hleft := i.left_eq hl hpasses hw
  refine ⟨fun f hf hgood => ?_, hleft, fun place hplace hwritable => i.entry?_left hplace hwritable hwrites hleft,
    fun hbad => ?_⟩
  · obtain ⟨r, hmem, hr⟩ := exists_record_of_isWellFormed hf hgood
    exact ⟨r, hmem, hr, fun hk => Store.find?_of_writeAll hk hwrites hmem⟩
  · have hnames : malformed.map Prod.fst = (logs.filter fun f => !f.isWellFormed i.marker).map LogFile.name :=
      LogFile.names_failures logs
    have hlength : outcomes.length = wellFormed.length := length_of_insertEach hw
    refine ⟨?_, hlength, hnames, fun hd => ?_⟩
    · rw [i.output_eq_of_malformed hl hpasses hw (LogFile.filterMap_failure?_ne_nil hbad), tally_ofOutcomes, hlength]
    · rw [hnames]
      exact (nodup_names (i.nodup_listing hd hl)).sublist (List.filter_sublist.map _)

/-- A directory with a log, one that cannot be read and another whose name has no key: the first is stored, and
the exit code is 1 because of the others. -/
theorem exitCode_two :
    let found : Files := ⟨[([[108]], .directory), ([[108], Text.toUtf8 "1_2_3_4_.log"], .file (.bytes [])),
      ([[108], Text.toUtf8 "5_5_5_5_.log"], .unreadable .permissionDenied),
      ([[108], Text.toUtf8 "x.log"], .file (.bytes []))]⟩
    (run ⟨[], none, none⟩ found ["--db", "/d", "ingest", "/l"]).1 = ⟨1,
      ["skipping 5_5_5_5_.log: io error: Permission denied (os error 13)",
        "skipping x.log: malformed log filename: x.log"],
      "Stored 1 trial(s): 1 new, 0 conflicts (policy=ignore: 0 ignored, 0 replaced, 0 merged).\n",
      "  failed: 5_5_5_5_.log: io error: Permission denied (os error 13)\n"
        ++ "  failed: x.log: malformed log filename: x.log\n"
        ++ "Error: 2 file(s) failed to load\n"⟩ := by
  intro found
  let entries : List (FileName × Entry) := [(Text.toUtf8 "1_2_3_4_.log", .file (.bytes [])),
    (Text.toUtf8 "5_5_5_5_.log", .unreadable .permissionDenied), (Text.toUtf8 "x.log", .file (.bytes []))]
  let files : List LogFile :=
    [⟨"1_2_3_4_.log", .ok []⟩, ⟨"5_5_5_5_.log", .error .permissionDenied⟩, ⟨"x.log", .ok []⟩]
  obtain ⟨o, ho, hfound, hargs, htask, hset, hplace, -, hopened⟩ := @exists_opening [[100]] ⟨[], none, none⟩ found
    ["--db", "/d", "ingest", "/l"] (some "/d") (.ingest (some "/l") none none) .standard (by decide +kernel) rfl
    (by decide +kernel)
  let i : Intake := ⟨o, some "/l", none, none, htask⟩
  have hl : i.listing = .ok entries := by
    show o.opened.list o.environment.workingDirectory (.ofText "/l") = _
    rw [hopened, ho]
    decide +kernel
  have hfiles : matchingLogs i.pattern entries = files := by
    show matchingLogs o.settings.pattern entries = _
    rw [hset, matchingLogs, List.mergeSort_of_pairwise (by decide +kernel)]
    decide +kernel
  have hmarker : i.marker = Settings.standard.outcomeMarker := congrArg Settings.outcomeMarker hset
  have hpolicy : i.policy = Settings.standard.policy := congrArg Settings.policy hset
  have hstore : i.database.store = .inMemory Files.databaseCodec := by
    refine (Files.openDatabase_spec o.opens hplace).2.2.1 ?_
    rw [hfound]
    decide +kernel
  have hinsert : (i.database.store.insertEach i.policy (records i.marker i.pattern entries)).1 = .ok [.inserted] := by
    rw [records, hfiles, hmarker, hpolicy, hstore]
    decide +kernel
  obtain ⟨-, hmalformed⟩ := exitCode_spec i
  obtain ⟨-, -, -, hreports⟩ := hmalformed entries [.inserted] _ hl (by rw [hfiles, hmarker]; decide +kernel)
    (Prod.ext hinsert rfl)
  obtain ⟨houtput, -⟩ := hreports (by rw [hfiles, hmarker]; decide +kernel)
  have hrun : (run ⟨[], none, none⟩ found ["--db", "/d", "ingest", "/l"]).1 = i.output := by
    rw [← ho, ← hfound, ← hargs]
    rfl
  rw [hrun, houtput, hfiles, hmarker, hpolicy]
  decide +kernel

end Command
end Campaign
