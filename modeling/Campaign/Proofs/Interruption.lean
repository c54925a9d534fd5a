import Mathlib
import Campaign.Proofs.Ingest

/-!
# Runs that end early

A run ends early at a log whose sample overruns its columns, or whose record the store does not take
(`Stops`). It has done then what a run does over the logs that come before this one, and no more: the store
holds the records of those, inserted one after another (`directory_ended`).
-/

namespace Campaign.Ingest
open Store
variable {marker pattern : String} {policy : Policy} {report : Report} {files : List LogFile} {s : Store}
  {f : LogFile} {name : String} {fault : Fault}

/-- The log ends a run that has come to a store. -/
inductive Stops (marker : String) (policy : Policy) (s : Store) (f : LogFile) : Fault → Prop
  | overrun (h : f.record marker = .error (.log .overrun)) : Stops marker policy s f (.log .overrun)
  | refused {r : Record} {fault : Fault} (hr : f.record marker = .ok r)
      (h : s.insert policy r = (.error fault, s)) : Stops marker policy s f fault

theorem eq_overrun_of_endsRun (h : endsRun fault = true) : fault = .log .overrun := by
  unfold endsRun at h
  split at h
  · rfl
  · cases h

/-- One log: the run ends there and has done nothing with it, or it goes on behind it. -/
theorem logs_cons_cases (marker : String) (policy : Policy) (report : Report) (f : LogFile) :
    (∃ fault, Stops marker policy report.store f fault ∧ ∀ files,
      logs marker policy report (f :: files) = { report with ended := some (f.name, fault) }) ∨
    ∃ next : Report, next.ended = report.ended ∧ ∀ files,
      logs marker policy report (f :: files) = logs marker policy next files := by
  cases hr : f.record marker with
  | error fault =>
    by_cases hends : endsRun fault = true
    · obtain rfl := eq_overrun_of_endsRun hends
      exact .inl ⟨_, .overrun hr, fun files => by rw [logs, hr]; rfl⟩
    · refine .inr ⟨{ report with failures := report.failures ++ [(f.name, fault)] }, rfl, fun files => ?_⟩
      rw [logs, hr]
      simp only [hends, Bool.false_eq_true, if_false]
  | ok r =>
    rcases hw : report.store.insert policy r with ⟨fault | outcome, s'⟩
    · obtain ⟨-, rfl⟩ := insert_eq_error.1 hw
      exact .inl ⟨fault, .refused hr hw, fun files => by simp only [logs, hr, hw]⟩
    · exact .inr ⟨{ report with tally := report.tally.add outcome, store := s' }, rfl, fun files => by
        simp only [logs, hr, hw]⟩

/-- A run that ends early has come to its end over the logs before the one that stops it. -/
theorem exists_split_of_ended (hr : report.ended = none)
    (h : (logs marker policy report files).ended = some (name, fault)) :
    ∃ before f behind, files = before ++ f :: behind ∧ f.name = name ∧
      (logs marker policy report before).ended = none ∧
      Stops marker policy (logs marker policy report before).store f fault ∧
      logs marker policy report files
        = { logs marker policy report before with ended := some (name, fault) } := by
  induction files generalizing report with
  | nil => rw [logs, hr] at h; cases h
  | cons f files ih =>
    rcases logs_cons_cases marker policy report f with ⟨fault', hstops, hlogs⟩ | ⟨next, hnext, hlogs⟩
    · rw [hlogs] at h ⊢
      obtain ⟨rfl, rfl⟩ := Prod.mk.inj (Option.some.inj h)
      exact ⟨[], f, files, rfl, rfl, hr, hstops, rfl⟩
    · rw [hlogs] at h ⊢
      obtain ⟨before, g, behind, rfl, hname, hended, hstops, heq⟩ := ih (hnext.trans hr) h
      exact ⟨f :: before, g, behind, rfl, hname, by rwa [hlogs], by rwa [hlogs], by rwa [hlogs]⟩

/-! ### Directories -/

theorem matchingLogs_of_pairwise {entries : List (FileName × Entry)}
    (h : entries.Pairwise fun a b => a.1 ≤ b.1) :
    matchingLogs pattern entries = entries.filterMap (LogFile.ofEntry? pattern) := by
  rw [matchingLogs, List.mergeSort_of_pairwise (by simpa using h)]

/-- Of entries in ascending order, all with names of their own, those before one have lesser names. -/
theorem mem_before_iff {before behind : List (FileName × Entry)} {entry e : FileName × Entry}
    (hs : (before ++ entry :: behind).Pairwise fun a b => a.1 ≤ b.1)
    (hd : ((before ++ entry :: behind).map Prod.fst).Nodup) (he : e ∈ before ++ entry :: behind) :
    e ∈ before ↔ e.1 < entry.1 := by
  have hlt : (before ++ entry :: behind).Pairwise fun a b => a.1 < b.1 :=
    (hs.and (List.pairwise_map.1 hd)).imp fun ⟨hle, hne⟩ => List.not_le.1 fun hge => hne (List.le_antisymm hle hge)
  obtain ⟨-, hbehind, hbefore⟩ := List.pairwise_append.1 hlt
  constructor
  · intro hm
    exact hbefore e hm entry List.mem_cons_self
  · intro h
    rcases List.mem_append.1 he with hm | hm
    · exact hm
    · rcases List.mem_cons.1 hm with rfl | hm
      · exact absurd h (List.lt_irrefl _)
      · exact absurd h (List.lt_asymm ((List.pairwise_cons.1 hbehind).1 e hm))

/-- A run over a directory that ends early has stopped at one of its logs. The store is what comes of
inserting, in ascending order of the file names, the records of the logs that come before this one and
nothing else. A log has a record if its name has a key, its file can be read and its text is one of a log. A run
over the entries before alone comes to the same store, the same tally and the same failures, and to its end. -/
theorem directory_ended (marker pattern : String) (policy : Policy) (entries : List (FileName × Entry))
    (s : Store) (name : String) (fault : Fault)
    (h : (directory marker pattern policy entries s).ended = some (name, fault)) :
    let report := directory marker pattern policy entries s
    ∃ before entry behind f,
      (before ++ entry :: behind).Perm entries ∧
      (before ++ entry :: behind).Pairwise (fun a b => a.1 ≤ b.1) ∧
      ((entries.map Prod.fst).Nodup → ∀ e ∈ entries, e ∈ before ↔ e.1 < entry.1) ∧
      LogFile.ofEntry? pattern entry = some f ∧ f.name = name ∧ Stops marker policy report.store f fault ∧
      (∃ outcomes, s.insertEach policy
          ((before.filterMap (LogFile.ofEntry? pattern)).filterMap (LogFile.record? marker))
          = (.ok outcomes, report.store) ∧ report.tally = .ofOutcomes outcomes) ∧
      (∀ f r, LogFile.record? marker f = some r ↔ Key.ofLogName? f.name = some r.key ∧
        ∃ bytes, f.contents = .ok bytes ∧ Log.read marker (Text.ofUtf8Lenient bytes) = .ok r.samples) ∧
      report.failures = (before.filterMap (LogFile.ofEntry? pattern)).filterMap (LogFile.failure? marker) ∧
      directory marker pattern policy before s = { report with ended := none } := by
  intro report
  obtain ⟨files, f, rest, hfiles, hname, hended, hstops, hreport⟩ := exists_split_of_ended rfl h
  have hlogs : logs marker policy (.start s) files = { report with ended := none } := by
    rw [show report = _ from hreport, ← hended]
  rw [hlogs] at hended hstops
  have hcomplete : (logs marker policy (.start s) files).ended = none := by rw [hlogs]
  obtain ⟨outcomes, hrecords, htally, hfailures⟩ := logs_spec hcomplete
  rw [hlogs] at hrecords htally hfailures
  -- the log stands in an entry of the sorted directory, and those before it in the entries before
  obtain ⟨before, others, hsorted, rfl, hothers⟩ := List.filterMap_eq_append_iff.1 hfiles
  obtain ⟨noLogs, entry, behind, rfl, hnone, hentry, -⟩ := List.filterMap_eq_cons_iff.1 hothers
  rw [← List.append_assoc] at hsorted
  have hperm : (before ++ noLogs ++ entry :: behind).Perm entries := hsorted ▸ List.mergeSort_perm _ _
  have hpairwise : (before ++ noLogs ++ entry :: behind).Pairwise fun a b => a.1 ≤ b.1 := by
    rw [← hsorted]
    simpa using List.pairwise_mergeSort le_trans_name le_total_name entries
  have hlogsBefore : (before ++ noLogs).filterMap (LogFile.ofEntry? pattern)
      = before.filterMap (LogFile.ofEntry? pattern) := by
    rw [List.filterMap_append, List.filterMap_eq_nil_iff.2 hnone, List.append_nil]
  refine ⟨before ++ noLogs, entry, behind, f, hperm, hpairwise, fun hd e he => ?_, hentry, hname, hstops,
    ⟨outcomes, by rwa [hlogsBefore], htally⟩, fun f r => LogFile.record?_eq_some, by rwa [hlogsBefore], ?_⟩
  · exact mem_before_iff hpairwise ((hperm.map _).nodup_iff.2 hd) (hperm.mem_iff.2 he)
  · rw [directory, matchingLogs_of_pairwise (List.pairwise_append.1 hpairwise).1, hlogsBefore, hlogs]

/-- A log that is inserted, two that are reported, one for its name and one for a file that cannot be read, and
one to be merged with bytes that no codec has written: the run stops there and leaves the fifth log alone. -/
theorem directory_ended_planted :
    let bytes (text : String) : List UInt8 := text.toList.map fun c => UInt8.ofNat c.toNat
    let failed : Entry := .file (.bytes (bytes "APP: pmpd Failed"))
    let entries := [(bytes "1_2_3_4_a.log", failed), (bytes "1_x.log", failed),
      (bytes "2_2_3_4_a.log", .unreadable .permissionDenied), (bytes "3_3_3_3_a.log", failed),
      (bytes "4_2_3_4_a.log", failed)]
    let s : Store := { codec := .blob, table := ⟨.standard, [.ofIntegers ⟨3, 3, 3, 3⟩ (.blob [0])]⟩ }
    let report := directory "APP: pmpd" "" .merge entries s
    report.ended = some ("3_3_3_3_a.log", .blob (.tooShort 1)) ∧
      report.failures = [("1_x.log", .logName "1_x.log"), ("2_2_3_4_a.log", .file .permissionDenied)] ∧
      ∃ before entry behind, (before ++ entry :: behind).Perm entries ∧
        (∀ e ∈ entries, e ∈ before ↔ e.1 < entry.1) ∧
        directory "APP: pmpd" "" .merge before s = { report with ended := none } := by
  intro bytes failed entries s report
  let files : List LogFile := [⟨"1_2_3_4_a.log", .ok (bytes "APP: pmpd Failed")⟩,
    ⟨"1_x.log", .ok (bytes "APP: pmpd Failed")⟩, ⟨"2_2_3_4_a.log", .error .permissionDenied⟩,
    ⟨"3_3_3_3_a.log", .ok (bytes "APP: pmpd Failed")⟩, ⟨"4_2_3_4_a.log", .ok (bytes "APP: pmpd Failed")⟩]
  have hlogs : (logs "APP: pmpd" .merge (.start s) files).ended
      = some ("3_3_3_3_a.log", .blob (.tooShort 1)) := by decide +revert
  have hreported : (logs "APP: pmpd" .merge (.start s) files).failures
      = [("1_x.log", .logName "1_x.log"), ("2_2_3_4_a.log", .file .permissionDenied)] := by decide +revert
  have hfiles : matchingLogs "" entries = files := by
    rw [matchingLogs_of_pairwise (by decide)]
    rfl
  have hended : report.ended = some ("3_3_3_3_a.log", .blob (.tooShort 1)) :=
    (congrArg (fun fs => (logs _ _ _ fs).ended) hfiles).trans hlogs
  obtain ⟨before, entry, behind, -, hperm, -, hnames, -, -, -, -, -, -, halone⟩ := directory_ended _ _ _ _ _ _ _ hended
  exact ⟨hended, (congrArg (fun fs => (logs _ _ _ fs).failures) hfiles).trans hreported, before, entry, behind, hperm,
    hnames (by decide), halone⟩

end Campaign.Ingest
