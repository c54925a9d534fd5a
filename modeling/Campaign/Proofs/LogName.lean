import Mathlib
import Campaign.Command.Report
import Campaign.Ingest
import Campaign.Proofs.Ascending

/-!
# Keys in file names

The name of a log has a key if it is four numbers that a field can hold, each closed by `_`, then anything,
then the ending of logs; a log with any other name is set aside with that name (`logName_spec`). Such a
name may start with the text of any key, whatever follows it, so no two keys have the same text, and the
worklist of failed trials tells which they are (`text_spec`).
-/

namespace Campaign

namespace Key

/-- Decimal digits, zeros in front or not, that write the value of a parameter. -/
structure WritesField (digits : List Char) (v : UInt32) : Prop where
  ne_nil : digits ≠ []
  isDigit : ∀ c ∈ digits, c.isDigit = true
  value : Nat.ofDigitChars 10 digits 0 = v.toNat

/-- Four fields, each closed by `_`, then anything, then the ending of logs. -/
def IsLogName (name : String) (k : Key) : Prop :=
  ∃ (digits : Setting String) (rest : String),
    name = digits.interval ++ "_" ++ digits.ratio ++ "_" ++ digits.unit ++ "_" ++ digits.size ++ "_" ++ rest
      ++ ".log" ∧ ∀ p, WritesField (digits.get p).toList (k.get p)

variable {s digits rest : List Char} {v : UInt32} {k l : Key}

/-! ### Reading a name -/

theorem fieldOfDigits?_eq_some : fieldOfDigits? digits = some v ↔
    digits ≠ [] ∧ Nat.ofDigitChars 10 digits 0 = v.toNat := by
  have hv : v.toNat < 2 ^ 32 := v.toNat_lt
  simp only [fieldOfDigits?]
  generalize Nat.ofDigitChars 10 digits 0 = n
  split_ifs with h
  · have hn : n < 2 ^ 32 := Nat.lt_succ_of_le h.2
    rw [Option.some_inj, ← UInt32.toNat_inj, UInt32.toNat_ofNat_of_lt' hn]
    exact ⟨fun he => ⟨h.1, he⟩, fun he => he.2⟩
  · exact iff_of_false (by simp) fun he => h ⟨he.1, he.2 ▸ Nat.le_of_lt_succ hv⟩

theorem takeField?_eq_some :
    takeField? s = some (v, rest) ↔ ∃ digits, s = digits ++ '_' :: rest ∧ WritesField digits v := by
  constructor
  · intro h
    unfold takeField? at h
    split at h
    next rest' hdrop =>
      obtain ⟨w, hw, he⟩ := Option.map_eq_some_iff.1 h
      obtain ⟨rfl, rfl⟩ := Prod.mk.inj he
      obtain ⟨hne, hvalue⟩ := fieldOfDigits?_eq_some.1 hw
      refine ⟨s.takeWhile Char.isDigit, ?_, hne, fun c hc => List.mem_takeWhile_imp hc, hvalue⟩
      rw [← hdrop, List.takeWhile_append_dropWhile]
    next => cases h
  · rintro ⟨digits, rfl, hne, hdigits, hvalue⟩
    have htake : (digits ++ '_' :: rest).takeWhile Char.isDigit = digits := by
      rw [List.takeWhile_append_of_pos hdigits, List.takeWhile_cons_of_neg (by decide), List.append_nil]
    have hdrop : (digits ++ '_' :: rest).dropWhile Char.isDigit = '_' :: rest := by
      rw [List.dropWhile_append_of_pos hdigits, List.dropWhile_cons_of_neg (by decide)]
    rw [takeField?, hdrop, htake, fieldOfDigits?_eq_some.2 ⟨hne, hvalue⟩]
    rfl

theorem ofStem?_eq_some : ofStem? s = some k ↔ ∃ (digits : Setting (List Char)) (rest : List Char),
    s = digits.interval ++ '_' :: (digits.ratio ++ '_' :: (digits.unit ++ '_' :: (digits.size ++ '_' :: rest))) ∧
      ∀ p, WritesField (digits.get p) (k.get p) := by
  simp only [ofStem?, bind, Option.bind_eq_some_iff, Prod.exists, takeField?_eq_some, pure, Option.some_inj]
  constructor
  · rintro ⟨_, _, ⟨d₁, rfl, h₁⟩, _, _, ⟨d₂, rfl, h₂⟩, _, _, ⟨d₃, rfl, h₃⟩, _, rest, ⟨d₄, rfl, h₄⟩, rfl⟩
    exact ⟨⟨d₁, d₂, d₃, d₄⟩, rest, rfl, fun p => by cases p <;> assumption⟩
  · rintro ⟨digits, rest, rfl, h⟩
    exact ⟨_, _, ⟨_, rfl, h .interval⟩, _, _, ⟨_, rfl, h .ratio⟩, _, _, ⟨_, rfl, h .unit⟩, _, _,
      ⟨_, rfl, h .size⟩, rfl⟩

theorem ofLogName?_eq_some_iff_stem {name : String} :
    ofLogName? name = some k ↔ ∃ stem, name.toList = stem ++ logEnding ∧ ofStem? stem = some k := by
  simp only [ofLogName?]
  constructor
  · intro h
    split_ifs at h with hs
    obtain ⟨stem, hstem⟩ := List.isSuffixOf_iff_suffix.1 hs
    refine ⟨stem, hstem.symm, ?_⟩
    rwa [← hstem, List.length_append, Nat.add_sub_cancel, List.take_left] at h
  · rintro ⟨stem, hstem, h⟩
    rw [hstem, if_pos (List.isSuffixOf_iff_suffix.2 (List.suffix_append _ _)), List.length_append,
      Nat.add_sub_cancel, List.take_left, h]

theorem ofLogName?_eq_some {name : String} : ofLogName? name = some k ↔ IsLogName name k := by
  simp only [ofLogName?_eq_some_iff_stem, ofStem?_eq_some]
  constructor
  · rintro ⟨_, hname, digits, rest, rfl, h⟩
    refine ⟨digits.map String.ofList, String.ofList rest, ?_, fun p => ?_⟩
    · rw [← String.toList_inj, hname]
      simp [Setting.map, Setting.ofFn, Setting.get, logEnding]
    · simpa [Setting.map] using h p
  · rintro ⟨digits, rest, rfl, h⟩
    refine ⟨_, ?_, digits.map String.toList, rest.toList, rfl, fun p => ?_⟩
    · simp [Setting.map, Setting.ofFn, Setting.get, logEnding]
    · simpa [Setting.map] using h p

/-- A log has a key exactly if its name is four numbers that a field can hold, each closed by `_`, then
anything, then the ending of logs. A log with any other name is set aside for that name, whatever it holds and
whether it can be read or not. -/
theorem logName_spec (name : String) :
    (∀ k, ofLogName? name = some k ↔ IsLogName name k) ∧
    ∀ (marker : String) (contents : Except FileFault (List UInt8)) (blamed : String),
      LogFile.record marker ⟨name, contents⟩ = .error (.logName blamed) ↔
        blamed = name ∧ ¬∃ k, IsLogName name k := by
  refine ⟨fun k => ofLogName?_eq_some, fun marker contents blamed => ?_⟩
  simp only [← ofLogName?_eq_some, LogFile.record]
  cases ofLogName? name with
  | none => simp [eq_comm]
  | some k =>
    cases contents with
    | error cause => simp
    | ok bytes => cases hread : Log.read marker (Text.ofUtf8Lenient bytes) <;> simp [hread]

/-- The last field has to be closed too. -/
example : ofLogName? "1_50_256_1024.log" = none := by decide

/-! ### Writing a name -/

theorem toList_toString (n : Nat) : (toString n).toList = Nat.toDigits 10 n := by
  rw [Nat.toString_eq_ofList_toDigits, String.toList_ofList]

theorem isDigit_of_mem_toString {n : Nat} {c : Char} (h : c ∈ (toString n).toList) : c.isDigit = true := by
  rw [toList_toString] at h
  exact Nat.isDigit_of_mem_toDigits (by decide) (by decide) h

theorem writesField_toString (v : UInt32) : WritesField (toString v.toNat).toList v := by
  refine ⟨?_, fun c => isDigit_of_mem_toString, ?_⟩ <;> rw [toList_toString]
  · exact Nat.toDigits_ne_nil
  · exact Nat.ofDigitChars_toDigits (by decide) (by decide)

theorem text_eq (k : Key) : k.text = toString k.interval.toNat ++ "_" ++ toString k.ratio.toNat ++ "_"
    ++ toString k.unit.toNat ++ "_" ++ toString k.size.toNat := rfl

theorem ofLogName?_text_append (k : Key) (rest : String) :
    ofLogName? (k.text ++ "_" ++ rest ++ ".log") = some k := by
  refine ofLogName?_eq_some.2 ⟨⟨toString k.interval.toNat, toString k.ratio.toNat, toString k.unit.toNat,
    toString k.size.toNat⟩, rest, by rw [text_eq], fun p => ?_⟩
  cases p <;> exact writesField_toString _

theorem text_injective : Function.Injective text := fun k l h =>
  Option.some_inj.1 ((ofLogName?_text_append k "").symm.trans (h ▸ ofLogName?_text_append l ""))

theorem newline_not_mem_toString (n : Nat) : '\n' ∉ (toString n).toList :=
  fun h => absurd (isDigit_of_mem_toString h) (by decide)

theorem newline_not_mem_text (k : Key) : '\n' ∉ k.text.toList := by
  simp only [text_eq, String.toList_append, List.mem_append, newline_not_mem_toString, or_false, false_or]
  decide

end Key

namespace Command.Report

theorem join_line_cons (l : String) (ls : List String) :
    (String.join ((l :: ls).map line)).toList = l.toList ++ '\n' :: (String.join (ls.map line)).toList := by
  simp [line]

theorem takeWhile_line {l : List Char} (h : '\n' ∉ l) (more : List Char) :
    (l ++ '\n' :: more).takeWhile (· ≠ '\n') = l := by
  have hne : ∀ c ∈ l, decide (c ≠ '\n') = true := fun c hc => decide_eq_true fun he => h (he ▸ hc)
  rw [List.takeWhile_append_of_pos hne, List.takeWhile_cons_of_neg (by simp), List.append_nil]

/-- Lines that are printed one after another can be told apart. -/
theorem join_line_inj {ls ls' : List String} (h : ∀ l ∈ ls, '\n' ∉ l.toList) (h' : ∀ l ∈ ls', '\n' ∉ l.toList) :
    String.join (ls.map line) = String.join (ls'.map line) ↔ ls = ls' := by
  refine ⟨fun he => ?_, fun he => he ▸ rfl⟩
  rw [← String.toList_inj] at he
  induction ls generalizing ls' with
  | nil =>
    cases ls' with
    | nil => rfl
    | cons l' ls' => rw [join_line_cons] at he; exact absurd he.symm (by simp)
  | cons l ls ih =>
    cases ls' with
    | nil => rw [join_line_cons] at he; exact absurd he (by simp)
    | cons l' ls' =>
      obtain ⟨hl, hls⟩ := List.forall_mem_cons.1 h
      obtain ⟨hl', hls'⟩ := List.forall_mem_cons.1 h'
      rw [join_line_cons, join_line_cons] at he
      -- the first line is what stands before the first end of a line
      have hfirst : l.toList = l'.toList := by rw [← takeWhile_line hl, he, takeWhile_line hl']
      rw [hfirst, List.append_cancel_left_eq, List.cons_inj_right] at he
      rw [String.toList_inj.1 hfirst, ih hls hls' he]

/-- The lines of the worklist of some keys. -/
def worklistLines (ks : List Key) : List String :=
  if ks = [] then ["No failed trials."] else ks.map Key.text ++ [s!"{ks.length} trial(s) to re-run."]

theorem worklist_eq (rs : List Record) :
    worklist rs = String.join ((worklistLines ((Record.sorted rs).map Record.key)).map line) := by
  have hlength : (Record.sorted rs).length = rs.length := (Record.sorted_perm rs).length_eq
  have hnil : (Record.sorted rs).map Record.key = [] ↔ rs = [] := by
    rw [List.map_eq_nil_iff, ← List.length_eq_zero_iff, hlength, List.length_eq_zero_iff]
  simp only [worklist, worklistLines, List.isEmpty_iff, hnil, List.length_map, hlength]
  split_ifs
  · simp
  · simp [List.map_map, Function.comp_def]

theorem newline_not_mem_worklistLines (ks : List Key) : ∀ l ∈ worklistLines ks, '\n' ∉ l.toList := by
  unfold worklistLines
  split_ifs
  · decide
  · intro l hl
    rcases List.mem_append.1 hl with hl | hl
    · obtain ⟨k, -, rfl⟩ := List.mem_map.1 hl
      exact k.newline_not_mem_text
    · rw [List.mem_singleton.1 hl]
      simp only [String.toList_append, List.mem_append, Key.newline_not_mem_toString]
      decide

theorem dropLast_worklistLines (ks : List Key) : (worklistLines ks).dropLast = ks.map Key.text := by
  unfold worklistLines
  split_ifs with h
  · simp [h]
  · exact List.dropLast_concat

theorem worklistLines_injective : Function.Injective worklistLines := fun ks ks' h => by
  have htexts : ks.map Key.text = ks'.map Key.text := by
    rw [← dropLast_worklistLines, h, dropLast_worklistLines]
  exact List.map_injective_iff.2 Key.text_injective htexts

end Command.Report

/-- The text of a key, `_`, anything and the ending of logs make a name with this key. So keys with the same
text are the same, and so are the keys of failed trials whose worklists are printed the same. -/
theorem Key.text_spec :
    (∀ (k : Key) (rest : String), ofLogName? (k.text ++ "_" ++ rest ++ ".log") = some k) ∧
    (∀ k l : Key, k.text = l.text ↔ k = l) ∧
    ∀ rs rs' : List Record, Command.Report.worklist rs = Command.Report.worklist rs' ↔
      (Record.sorted rs).map Record.key = (Record.sorted rs').map Record.key := by
  refine ⟨ofLogName?_text_append, fun k l => text_injective.eq_iff, fun rs rs' => ?_⟩
  rw [Command.Report.worklist_eq, Command.Report.worklist_eq,
    Command.Report.join_line_inj (Command.Report.newline_not_mem_worklistLines _)
      (Command.Report.newline_not_mem_worklistLines _)]
  exact Command.Report.worklistLines_injective.eq_iff

end Campaign
