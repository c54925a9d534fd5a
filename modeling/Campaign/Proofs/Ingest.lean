import Mathlib
import Campaign.Ingest
import Campaign.Proofs.Batch
import Campaign.Proofs.Utf8

/-!
# What comes of a directory of logs

A log either has a record or a reason to be set aside: its name, its file or its text (`LogFile.Fails`). A
run that comes to its end has set aside the ones and inserted the records of the others one after another,
in the order of the file names (`directory_spec`). What it has set aside might as well not have been there.
-/

namespace Campaign

/-! ### Sorting and leaving out -/

section
variable {α : Type} {le : α → α → Bool} {a : α} {p : α → Bool}

end

deriving instance DecidableEq for LogFile

namespace LogFile
variable {marker pattern : String} {f : LogFile} {e : Entry} {fault : Fault}

/-- What a log says under a marker, if its file can be read. -/
def reading (marker : String) (f : LogFile) : Except Fault (Option Matrix) :=
  match f.contents with
  | .error cause => .error (.file cause)
  | .ok bytes => (Log.read marker (Text.ofUtf8Lenient bytes)).mapError .log

/-- The record of a log, if its name has a key and its text can be read. -/
def record? (marker : String) (f : LogFile) : Option Record :=
  match Key.ofLogName? f.name, f.reading marker with
  | some key, .ok samples => some ⟨key, samples⟩
  | _, _ => none

/-- What is reported of a log, if its name has no key or its text cannot be read. -/
def failure? (marker : String) (f : LogFile) : Option (String × Fault) :=
  match Key.ofLogName? f.name, f.reading marker with
  | none, _ => some (f.name, .logName f.name)
  | some _, .error fault => some (f.name, fault)
  | some _, .ok _ => none

/-- Why a log has no record: its name has no key, the system does not let its file be read, or its text
breaks the format. -/
inductive Fails (marker : String) (f : LogFile) : Fault → Prop
  | name (h : Key.ofLogName? f.name = none) : Fails marker f (.logName f.name)
  | file {key : Key} {cause : FileFault} (hname : Key.ofLogName? f.name = some key)
      (h : f.contents = .error cause) : Fails marker f (.file cause)
  | text {key : Key} {bytes : List UInt8} {fault : LogFault} (hname : Key.ofLogName? f.name = some key)
      (hfile : f.contents = .ok bytes) (h : Log.read marker (Text.ofUtf8Lenient bytes) = .error fault) :
      Fails marker f (.log fault)

theorem record_eq_reading (marker : String) (f : LogFile) : f.record marker =
    match Key.ofLogName? f.name with
    | none => .error (.logName f.name)
    | some key => (f.reading marker).map (Record.mk key) := by
  unfold record reading
  cases Key.ofLogName? f.name with
  | none => rfl
  | some key =>
    cases f.contents with
    | error cause => rfl
    | ok bytes =>
      dsimp only
      cases Log.read marker (Text.ofUtf8Lenient bytes) <;> rfl

/-- A log has a record or is reported, and not both. -/
theorem record_cases (marker : String) (f : LogFile) :
    (∃ r, f.record marker = .ok r ∧ f.record? marker = some r ∧ f.failure? marker = none) ∨
    ∃ fault, f.record marker = .error fault ∧ f.record? marker = none ∧
      f.failure? marker = some (f.name, fault) := by
  rw [record_eq_reading, record?, failure?]
  cases Key.ofLogName? f.name with
  | none => exact .inr ⟨_, rfl, rfl, rfl⟩
  | some key =>
    cases f.reading marker with
    | error fault => exact .inr ⟨_, rfl, rfl, rfl⟩
    | ok samples => exact .inl ⟨_, rfl, rfl, rfl⟩

/-- The record of a log has the key of its name and the samples of its text. -/
theorem record?_eq_some {r : Record} : f.record? marker = some r ↔ Key.ofLogName? f.name = some r.key ∧
    ∃ bytes, f.contents = .ok bytes ∧ Log.read marker (Text.ofUtf8Lenient bytes) = .ok r.samples := by
  unfold record? reading
  cases Key.ofLogName? f.name with
  | none => simp
  | some key =>
    cases f.contents with
    | error cause => simp
    | ok bytes =>
      cases hread : Log.read marker (Text.ofUtf8Lenient bytes) with
      | error fault => simp [hread, Except.mapError]
      | ok samples => cases r; simp [hread, Except.mapError]

theorem ofEntry?_eq_some {name : FileName} : ofEntry? pattern (name, e) = some f ↔ name = Text.toUtf8 f.name ∧
    e.contents? = some f.contents ∧ pattern.toList <+: f.name.toList ∧ ".log".toList <:+ f.name.toList := by
  simp only [ ofEntry?, Option.bind_eq_bind, Option.bind_eq_some_iff]
  constructor
  · rintro ⟨contents, hcontents, text, htext, hf⟩
    split_ifs at hf with hends
    obtain rfl := Option.some.inj hf
    simp only [Bool.and_eq_true, List.isPrefixOf_iff_prefix, List.isSuffixOf_iff_suffix] at hends
    rw [← Text.ofUtf8?_eq_some_toList, String.toList_ofList]
    exact ⟨htext, hcontents, hends⟩
  · rintro ⟨rfl, hcontents, hends⟩
    refine ⟨f.contents, hcontents, f.name.toList, Text.ofUtf8?_eq_some_toList.2 rfl, ?_⟩
    rw [if_pos, String.ofList_toList]
    · rfl
    · simp only [Bool.and_eq_true, List.isPrefixOf_iff_prefix, List.isSuffixOf_iff_suffix]
      exact hends

end LogFile

namespace Store
variable {s s' : Store} {policy : Policy} {r : Record} {rs : List Record} {outcomes : List Outcome}

theorem insertEach_cons_eq_ok : s.insertEach policy (r :: rs) = (.ok outcomes, s') ↔
    ∃ o s₁ os, s.insert policy r = (.ok o, s₁) ∧ s₁.insertEach policy rs = (.ok os, s') ∧
      outcomes = o :: os := by
  simp only [insertEach_eq_ok, insert_eq_ok, writeAll_cons_eq_ok]

end Store

namespace Ingest
open Store
variable {marker pattern : String} {policy : Policy} {report : Report} {files : List LogFile}

/-- A run that comes to its end has inserted the records and reported the other logs. -/
theorem logs_spec (h : (logs marker policy report files).ended = none) :
    ∃ outcomes, report.store.insertEach policy (files.filterMap (LogFile.record? marker))
        = (.ok outcomes, (logs marker policy report files).store) ∧
      (logs marker policy report files).tally = outcomes.foldl Tally.add report.tally ∧
      (logs marker policy report files).failures
        = report.failures ++ files.filterMap (LogFile.failure? marker) := by
  induction files generalizing report with
  | nil => exact ⟨[], rfl, rfl, by simp [logs]⟩
  | cons f files ih =>
    rcases f.record_cases marker with ⟨r, hr, hr?, hf?⟩ | ⟨fault, hr, hr?, hf?⟩
    · rw [List.filterMap_cons_some hr?, List.filterMap_cons_none hf?]
      unfold logs at h ⊢
      simp only [hr] at h ⊢
      split at h
      · cases h
      next o s₁ hw =>
        obtain ⟨outcomes, hrest, ht, hfs⟩ := ih h
        exact ⟨o :: outcomes, insertEach_cons_eq_ok.2 ⟨o, s₁, outcomes, hw, hrest, rfl⟩, ht, hfs⟩
    · rw [List.filterMap_cons_none hr?, List.filterMap_cons_some hf?]
      unfold logs at h ⊢
      simp only [hr] at h ⊢
      split_ifs at h ⊢
      obtain ⟨outcomes, hrest, ht, hfs⟩ := ih h
      exact ⟨outcomes, hrest, ht, by rw [hfs, List.append_assoc]; rfl⟩

/-- A log passes if it does not end a run. -/
def Passes (marker : String) (f : LogFile) : Prop :=
  ∀ fault, f.record marker = .error fault → endsRun fault = false

theorem passes_of_failure?_eq_none {f : LogFile} (h : f.failure? marker = none) : Passes marker f := by
  intro fault hf
  rcases f.record_cases marker with ⟨r, hr, -, -⟩ | ⟨fault', -, -, hf?⟩
  · rw [hr] at hf; cases hf
  · rw [h] at hf?; cases hf?

theorem passes_of_ended (h : (logs marker policy report files).ended = none) :
    ∀ f ∈ files, Passes marker f := by
  induction files generalizing report with
  | nil => simp
  | cons f files ih =>
    refine List.forall_mem_cons.2 ?_
    unfold logs at h
    split at h
    next fault hr =>
      split_ifs at h with hends
      refine ⟨fun fault' hr' => ?_, ih h⟩
      obtain rfl := Except.error.inj (hr.symm.trans hr')
      exact Bool.not_eq_true _ ▸ hends
    next r hr =>
      split at h
      · cases h
      · exact ⟨fun fault hr' => absurd (hr.symm.trans hr') (by simp), ih h⟩

/-- A run over logs that pass inserts the records and reports the others. -/
theorem logs_of_passes {outcomes : List Outcome} {s' : Store} (hfs : ∀ f ∈ files, Passes marker f)
    (h : report.store.insertEach policy (files.filterMap (LogFile.record? marker)) = (.ok outcomes, s')) :
    logs marker policy report files
      = { report with
          tally := outcomes.foldl Tally.add report.tally
          failures := report.failures ++ files.filterMap (LogFile.failure? marker)
          store := s' } := by
  induction files generalizing report outcomes with
  | nil =>
    obtain ⟨rfl, rfl⟩ : [] = outcomes ∧ report.store = s' := by simpa [insertEach] using h
    simp [logs]
  | cons f files ih =>
    have hrest := List.forall_mem_cons.1 hfs
    rcases f.record_cases marker with ⟨r, hr, hr?, hf?⟩ | ⟨fault, hr, hr?, hf?⟩
    · rw [List.filterMap_cons_some hr?] at h
      obtain ⟨o, s₁, os, hw, hrest', rfl⟩ := insertEach_cons_eq_ok.1 h
      rw [logs, hr, List.filterMap_cons_none hf?]
      simp only [hw]
      exact ih hrest.2 hrest'
    · rw [List.filterMap_cons_none hr?] at h
      rw [logs, hr, List.filterMap_cons_some hf?]
      simp only [hrest.1 fault hr, Bool.false_eq_true, ↓reduceIte]
      have hreport := @ih { report with failures := report.failures ++ [(f.name, fault)] } outcomes hrest.2 h
      rw [hreport, List.append_assoc]
      rfl

/-- Each log counts once, as a record or as a failure. -/
theorem length_records_add_failures (files : List LogFile) :
    (files.filterMap (LogFile.record? marker)).length + (files.filterMap (LogFile.failure? marker)).length
      = files.length := by
  induction files with
  | nil => rfl
  | cons f files ih =>
    rcases f.record_cases marker with ⟨r, -, hr?, hf?⟩ | ⟨fault, -, hr?, hf?⟩
    · rw [List.filterMap_cons_some hr?, List.filterMap_cons_none hf?, List.length_cons, List.length_cons]
      omega
    · rw [List.filterMap_cons_none hr?, List.filterMap_cons_some hf?, List.length_cons, List.length_cons]
      omega

theorem le_trans_name (a b c : FileName × Entry) :
    decide (a.1 ≤ b.1) → decide (b.1 ≤ c.1) → decide (a.1 ≤ c.1) := by
  simp only [decide_eq_true_eq]; exact List.le_trans

theorem le_total_name (a b : FileName × Entry) : decide (a.1 ≤ b.1) || decide (b.1 ≤ a.1) := by
  simp only [Bool.or_eq_true, decide_eq_true_eq]; exact List.le_total _ _

theorem mem_matchingLogs {entries : List (FileName × Entry)} {f : LogFile} :
    f ∈ matchingLogs pattern entries ↔ ∃ e, (Text.toUtf8 f.name, e) ∈ entries ∧ e.contents? = some f.contents ∧
      pattern.toList <+: f.name.toList ∧ ".log".toList <:+ f.name.toList := by
  rw [matchingLogs, List.mem_filterMap]
  constructor
  · rintro ⟨⟨name, e⟩, hm, hf⟩
    obtain ⟨rfl, hkept⟩ := LogFile.ofEntry?_eq_some.1 hf
    exact ⟨e, (List.mergeSort_perm _ _).mem_iff.1 hm, hkept⟩
  · rintro ⟨e, hm, hkept⟩
    exact ⟨_, (List.mergeSort_perm _ _).mem_iff.2 hm, LogFile.ofEntry?_eq_some.2 ⟨rfl, hkept⟩⟩

end Ingest
end Campaign
