import Mathlib
import Campaign.Proofs.Entries
import Campaign.Proofs.Filter
import Campaign.Proofs.Planted

/-!
# Options on the command line

An option with its value can be written in several ways (`OptionForm.Writes`), and options may stand in any
order. However they are written, a scan adds them one after another (`scan_spells`), so a command is told
exactly what its options say if none is given twice and each accepts its value, and nothing otherwise
(`ofArguments?_spells`). The options of a filter give its parameters their integers, negative ones too
(`ofArguments?_filter`).
-/

namespace Campaign

namespace Text

theorem toList_toString_ofNat (n : Nat) : (toString (n : Int)).toList = Nat.toDigits 10 n := by
  rw [show toString (n : Int) = toString n from rfl, Nat.toString_eq_ofList_toDigits, String.toList_ofList]

theorem toList_toString_negSucc (n : Nat) :
    (toString (Int.negSucc n)).toList = '-' :: Nat.toDigits 10 (n + 1) := by
  rw [show toString (Int.negSucc n) = "-" ++ toString (n + 1) from rfl, String.toList_append,
    Nat.toString_eq_ofList_toDigits, String.toList_ofList]
  simp

theorem integer?_toString {n : Int} (h : leastInteger ≤ n ∧ n ≤ greatestInteger) :
    integer? (toString n).toList = some n := by
  cases n with
  | ofNat n =>
    rw [Int.ofNat_eq_natCast, toList_toString_ofNat, integer?_of_splitSign (splitSign_toDigits n)]
    exact if_pos h
  | negSucc n =>
    rw [toList_toString_negSucc, integer?_of_splitSign rfl]
    exact if_pos h

end Text

namespace Command

/-! ### Writing options -/

/-- The ways of writing an option with its value. -/
inductive OptionForm.Writes (form : OptionForm) : String → List String → Prop
  | flag (h : form.takesValue = false) : form.Writes "" ["--" ++ form.long]
  | next {value : String} (h : form.takesValue = true)
      (hv : form.takesAny = true ∨ startsLikeOption value = false) :
      form.Writes value ["--" ++ form.long, value]
  | equals {value : String} (h : form.takesValue = true) :
      form.Writes value ["--" ++ form.long ++ "=" ++ value]
  | letterNext {value : String} {letter : Char} (h : form.takesValue = true) (hs : form.short = some letter)
      (hv : form.takesAny = true ∨ startsLikeOption value = false) :
      form.Writes value ["-" ++ letter.toString, value]
  | letterEquals {value : String} {letter : Char} (h : form.takesValue = true)
      (hs : form.short = some letter) : form.Writes value ["-" ++ letter.toString ++ "=" ++ value]
  | letterValue {value : String} {letter : Char} (h : form.takesValue = true)
      (hs : form.short = some letter) (hne : value ≠ "") (heq : value.toList.head? ≠ some '=') :
      form.Writes value ["-" ++ letter.toString ++ value]

/-- Arguments that write options with their values, one after another. -/
inductive Spells : List (OptionForm × String) → List String → Prop
  | nil : Spells [] []
  | cons {form : OptionForm} {value : String} {args rest : List String} {written : List (OptionForm × String)}
      (h : form.Writes value args) (hrest : Spells written rest) :
      Spells ((form, value) :: written) (args ++ rest)

/-- The option can be told from all others and from the end of the options, and the scan goes on behind it. -/
structure OptionForm.IsAmong (form : OptionForm) (forms : List OptionForm) : Prop where
  long : forms.find? (fun f => f.long = form.long) = some form
  short : ∀ letter, form.short = some letter →
    forms.find? (fun f => f.short = some letter) = some form ∧ letter ≠ '-'
  name : form.long ≠ "" ∧ '=' ∉ form.long.toList
  goesOn : form.topic ≠ .version

variable {forms : List OptionForm} {form : OptionForm} {value : String} {args rest : List String}
  {s s' : Scanned} {toCommand : Bool} {written : List (OptionForm × String)}

/-! ### Reading one argument -/

theorem ofText_long {t : String} {u : List Char} (h : t.toList = '-' :: '-' :: u) (hne : u ≠ []) :
    Argument.ofText forms t = Argument.ofLong forms u := by
  rw [Argument.ofText, h]
  cases u with
  | nil => exact absurd rfl hne
  | cons c u => rfl

theorem ofText_short {t : String} {letter : Char} {u : List Char} (h : t.toList = '-' :: letter :: u)
    (hne : letter ≠ '-') : Argument.ofText forms t = Argument.ofShort forms letter u := by
  rw [Argument.ofText, h]
  split <;> simp_all

namespace OptionForm.IsAmong

/-- What stands before the first `=` behind the hyphens is the name of the option. -/
theorem ofLong_eq (h : form.IsAmong forms) (u : List Char) (hu : u = [] ∨ u.head? = some '=') :
    Argument.ofLong forms (form.long.toList ++ u) =
      match u with
      | [] => if form.takesValue then .start form else .whole form ""
      | _ :: value => if form.takesValue then .whole form (String.ofList value) else .bad := by
  have hname : ∀ c ∈ form.long.toList, decide (c ≠ '=') = true := fun c hc =>
    decide_eq_true fun he => h.name.2 (he ▸ hc)
  unfold Argument.ofLong
  rw [List.takeWhile_append_of_pos hname, List.dropWhile_append_of_pos hname]
  cases u with
  | nil => simp [h.long]
  | cons c u =>
    obtain rfl : c = '=' := by simpa using hu
    simp [h.long]

theorem ofText_name (h : form.IsAmong forms) : Argument.ofText forms ("--" ++ form.long) =
    if form.takesValue then .start form else .whole form "" := by
  have hne : form.long.toList ≠ [] := by simpa using h.name.1
  rw [ofText_long (u := form.long.toList) (by simp) hne]
  simpa using h.ofLong_eq [] (.inl rfl)

theorem ofText_equals (h : form.IsAmong forms) (ht : form.takesValue = true) :
    Argument.ofText forms ("--" ++ form.long ++ "=" ++ value) = .whole form value := by
  rw [ofText_long (u := form.long.toList ++ '=' :: value.toList) (by simp) (by simp),
    h.ofLong_eq _ (.inr rfl)]
  simp [ht]

/-- What stands behind the letter of the option is its value, without an `=` before it. -/
theorem ofShort_eq (h : form.IsAmong forms) {letter : Char} (hs : form.short = some letter) (u : List Char) :
    Argument.ofShort forms letter u = match u with
      | [] => if form.takesValue then .start form else .whole form ""
      | c :: rest => if form.takesValue then .whole form (String.ofList (if c = '=' then rest else c :: rest))
        else .bad := by
  unfold Argument.ofShort
  rw [(h.short letter hs).1]
  cases u with
  | nil => rfl
  | cons c u => simp [h.goesOn]

theorem ofText_letter (h : form.IsAmong forms) {letter : Char} (hs : form.short = some letter)
    (ht : form.takesValue = true) : Argument.ofText forms ("-" ++ letter.toString) = .start form := by
  rw [ofText_short (u := []) (by simp) (h.short letter hs).2, h.ofShort_eq hs]
  exact if_pos ht

theorem ofText_letterEquals (h : form.IsAmong forms) {letter : Char} (hs : form.short = some letter)
    (ht : form.takesValue = true) :
    Argument.ofText forms ("-" ++ letter.toString ++ "=" ++ value) = .whole form value := by
  rw [ofText_short (u := '=' :: value.toList) (by simp) (h.short letter hs).2, h.ofShort_eq hs]
  simp [ht]

theorem ofText_letterValue (h : form.IsAmong forms) {letter : Char} (hs : form.short = some letter)
    (ht : form.takesValue = true) (hne : value ≠ "") (heq : value.toList.head? ≠ some '=') :
    Argument.ofText forms ("-" ++ letter.toString ++ value) = .whole form value := by
  rw [ofText_short (u := value.toList) (by simp) (h.short letter hs).2, h.ofShort_eq hs]
  cases hu : value.toList with
  | nil => exact absurd (by simpa using hu) hne
  | cons c u =>
    have hc : c ≠ '=' := fun he => heq (by rw [hu, he]; rfl)
    simp [ht, hc, ← hu]

end OptionForm.IsAmong

/-! ### Scanning -/

theorem scan_start {arg : String} (h : Argument.ofText forms arg = .start form)
    (hv : form.takesAny = true ∨ startsLikeOption value = false) :
    scan forms toCommand none s (arg :: value :: rest) =
      (s.add form value).bind fun s => scan forms toCommand none s rest := by
  rw [scan, h]
  dsimp only
  rw [scan, if_pos (by simpa using hv)]
  rfl

theorem scan_whole {arg : String} (h : Argument.ofText forms arg = .whole form value)
    (hv : form.topic ≠ .version) :
    scan forms toCommand none s (arg :: rest) =
      (s.add form value).bind fun s => scan forms toCommand none s rest := by
  rw [scan, h]
  simp only [if_neg hv]
  rfl

/-- However an option is written, the scan adds it and goes on. -/
theorem scan_writes (h : form.IsAmong forms) (hw : form.Writes value args) :
    scan forms toCommand none s (args ++ rest) =
      (s.add form value).bind fun s => scan forms toCommand none s rest := by
  cases hw with
  | flag ht => exact scan_whole (by rw [h.ofText_name, ht]; rfl) h.goesOn
  | next ht hv => exact scan_start (by rw [h.ofText_name, if_pos ht]) hv
  | equals ht => exact scan_whole (h.ofText_equals ht) h.goesOn
  | letterNext ht hs hv => exact scan_start (h.ofText_letter hs ht) hv
  | letterEquals ht hs => exact scan_whole (h.ofText_letterEquals hs ht) h.goesOn
  | letterValue ht hs hne heq => exact scan_whole (h.ofText_letterValue hs ht hne heq) h.goesOn

/-- Options that are spelled out are added one after another. -/
theorem scan_spells (hw : Spells written args) (hin : ∀ w ∈ written, w.1.IsAmong forms) :
    scan forms toCommand none s (args ++ rest) =
      (written.foldlM (fun (s : Scanned) w => s.add w.1 w.2) s).bind fun s => scan forms toCommand none s rest := by
  induction hw generalizing s with
  | nil => rfl
  | cons h _ ih =>
    obtain ⟨hform, hin⟩ := List.forall_mem_cons.1 hin
    rw [List.append_assoc, scan_writes hform h, List.foldlM_cons, Option.bind_eq_bind, Option.bind_assoc]
    exact congrArg _ (funext fun s => ih hin)

/-! ### What the options say -/

/-- The values of options by what these are about. -/
def topics (written : List (OptionForm × String)) : List (Topic × String) :=
  written.map fun w => (w.1.topic, w.2)

/-- No option is given twice, and each accepts its value. -/
structure AreProper (written : List (OptionForm × String)) : Prop where
  once : ((topics written).map Prod.fst).Nodup
  accepted : ∀ w ∈ topics written, w.1.accepts w.2 = true

theorem add_eq_some : s.add form value = some s' ↔ s.options.lookup form.topic = none ∧
    form.topic.accepts value = true ∧ s' = { s with options := s.options ++ [(form.topic, value)] } := by
  unfold Scanned.add
  split_ifs with h
  · simp only [Bool.or_eq_true, Option.isSome_iff_ne_none, Bool.not_eq_true'] at h
    constructor
    · intro h'
      cases h'
    · rintro ⟨hnone, haccepts, -⟩
      rw [haccepts] at h
      simp [hnone] at h
  · simp only [Bool.or_eq_true, not_or, Option.isSome_iff_ne_none, ne_eq, not_not, Bool.not_eq_true',
      Bool.not_eq_false] at h
    simp [h, eq_comm]

theorem areProper_nil : AreProper [] := by
  constructor <;> simp [topics]

theorem areProper_cons {w : OptionForm × String} : AreProper (w :: written) ↔
    (∀ said ∈ topics written, said.1 ≠ w.1.topic) ∧ w.1.topic.accepts w.2 = true ∧ AreProper written := by
  constructor
  · intro h
    obtain ⟨hnew, honce⟩ := List.nodup_cons.1 h.once
    obtain ⟨haccepts, haccepted⟩ := List.forall_mem_cons.1 h.accepted
    exact ⟨fun said hsaid he => hnew (List.mem_map.2 ⟨said, hsaid, he⟩), haccepts, ⟨honce, haccepted⟩⟩
  · rintro ⟨hnew, haccepts, h⟩
    refine ⟨List.nodup_cons.2 ⟨fun hm => ?_, h.once⟩, List.forall_mem_cons.2 ⟨haccepts, h.accepted⟩⟩
    obtain ⟨said, hsaid, he⟩ := List.mem_map.1 hm
    exact hnew said hsaid he

/-- Options can be added one after another if they are proper and none of them has been given before. -/
theorem foldlM_add_eq_some : written.foldlM (fun (s : Scanned) w => s.add w.1 w.2) s = some s' ↔
    (∀ said ∈ topics written, s.options.lookup said.1 = none) ∧ AreProper written ∧
      s' = { s with options := s.options ++ topics written } := by
  induction written generalizing s with
  | nil =>
    have hsame : s.options ++ topics [] = s.options := List.append_nil _
    rw [hsame, List.foldlM_nil]
    constructor
    · intro h
      exact ⟨by simp [topics], areProper_nil, (Option.some.inj h).symm⟩
    · rintro ⟨-, -, rfl⟩
      rfl
  | cons w written ih =>
    have hnone (said : Topic × String) : (s.options ++ [(w.1.topic, w.2)]).lookup said.1 = none ↔
        s.options.lookup said.1 = none ∧ said.1 ≠ w.1.topic := by
      simp [List.lookup_append, List.lookup_eq_none_iff]
    have htopics : topics (w :: written) = (w.1.topic, w.2) :: topics written := rfl
    rw [List.foldlM_cons, Option.bind_eq_bind, Option.bind_eq_some_iff, areProper_cons, htopics,
      List.forall_mem_cons]
    simp only [add_eq_some, ih]
    constructor
    · rintro ⟨_, ⟨hfirst, haccepts, rfl⟩, hrest, hproper, rfl⟩
      exact ⟨⟨hfirst, fun said hm => ((hnone said).1 (hrest said hm)).1⟩,
        ⟨fun said hm => ((hnone said).1 (hrest said hm)).2, haccepts, hproper⟩, by simp⟩
    · rintro ⟨⟨hfirst, hrest⟩, ⟨hnew, haccepts, hproper⟩, rfl⟩
      exact ⟨_, ⟨hfirst, haccepts, rfl⟩, fun said hm => (hnone said).2 ⟨hrest said hm, hnew said hm⟩, hproper,
        by simp⟩

theorem scan_eq_some (hw : Spells written args) (hin : ∀ w ∈ written, w.1.IsAmong forms) :
    scan forms false none .empty args = some s' ↔ AreProper written ∧ s' = ⟨topics written, [], []⟩ := by
  have hscan : scan forms false none .empty (args ++ []) = _ := scan_spells hw hin
  rw [List.append_nil] at hscan
  simp only [scan, Option.bind_fun_some] at hscan
  rw [hscan, foldlM_add_eq_some]
  simp [Scanned.empty]

/-- The scan before a command stops at its name. -/
theorem scan_toCommand_eq_some {word : String} (hw : Spells written args)
    (hin : ∀ w ∈ written, w.1.IsAmong forms) (hword : Argument.ofText forms word = .word) :
    scan forms true none .empty (args ++ word :: rest) = some s' ↔
      AreProper written ∧ s' = ⟨topics written, [word], rest⟩ := by
  have hstop (s : Scanned) : scan forms true none s (word :: rest) = some { s with words := [word], rest } := by
    rw [scan, hword]
    rfl
  rw [scan_spells hw hin, Option.bind_eq_some_iff]
  simp only [hstop, foldlM_add_eq_some, Option.some.injEq]
  constructor
  · rintro ⟨_, ⟨-, hproper, rfl⟩, rfl⟩
    exact ⟨hproper, rfl⟩
  · rintro ⟨hproper, rfl⟩
    exact ⟨_, ⟨fun said _ => rfl, hproper, rfl⟩, rfl⟩

/-! ### Requests -/

instance (form : OptionForm) (forms : List OptionForm) : Decidable (form.IsAmong forms) :=
  decidable_of_iff
    (forms.find? (fun f => f.long = form.long) = some form ∧
      form.short.all (fun letter => forms.find? (fun f => f.short = some letter) = some form ∧ letter ≠ '-') ∧
      (form.long ≠ "" ∧ '=' ∉ form.long.toList) ∧ form.topic ≠ .version)
    ⟨fun ⟨long, short, name, goesOn⟩ => ⟨long, by simpa [Option.all_eq_true] using short, name, goesOn⟩,
      fun h => ⟨h.long, by simpa [Option.all_eq_true] using h.short, h.name, h.goesOn⟩⟩

theorem isAmong_ofCommand (name : Name) :
    ∀ form ∈ OptionForm.ofCommand name, form.IsAmong (OptionForm.ofCommand name) := by
  cases name <;> decide +kernel

theorem isAmong_general : OptionForm.database.IsAmong OptionForm.general := by
  decide +kernel

theorem ofText_of_ofText? {word : String} {name : Name} (h : Name.ofText? word = some name) :
    Argument.ofText forms word = .word := by
  unfold Name.ofText? at h
  split at h <;> first | rfl | cases h

/-- A command with its options, spelled out behind it, and perhaps a database, named before it. -/
theorem ofArguments?_spells {word : String} {name : Name} {first behind : List String}
    {before written : List (OptionForm × String)} {request : Request} (hname : Name.ofText? word = some name)
    (hfirst : Spells before first) (hbefore : ∀ w ∈ before, w.1 = .database)
    (hbehind : Spells written behind) (hwritten : ∀ w ∈ written, w.1 ∈ OptionForm.ofCommand name) :
    Request.ofArguments? (first ++ word :: behind) = some request ↔
      AreProper before ∧ AreProper written ∧ ∃ action,
        Request.action? name ⟨topics written, [], []⟩ = some action ∧
        request = .action (((topics written).lookup .database).or ((topics before).lookup .database)) action := by
  have hgeneral : ∀ w ∈ before, w.1.IsAmong OptionForm.general := fun w hw => hbefore w hw ▸ isAmong_general
  have hin : ∀ w ∈ written, w.1.IsAmong (OptionForm.ofCommand name) := fun w hw =>
    isAmong_ofCommand name _ (hwritten w hw)
  have hversion : (topics before).lookup .version = none := by
    rw [List.lookup_eq_none_iff]
    rintro said hm
    obtain ⟨w, hw, rfl⟩ := List.mem_map.1 hm
    rw [hbefore w hw]
    rfl
  rw [Request.ofArguments?, Option.bind_eq_bind, Option.bind_eq_some_iff]
  simp only [scan_toCommand_eq_some hfirst hgeneral (ofText_of_ofText? hname)]
  simp only [and_assoc, exists_and_left, exists_eq_left, hversion, Option.isSome_none, Bool.false_eq_true, if_false,
    List.head?_cons, Option.bind_some, hname, Option.bind_eq_bind, Option.bind_eq_some_iff,
    scan_eq_some hbehind hin, Option.pure_def, Option.some.injEq, @eq_comm _ request]

/-! ### The options of a filter -/

/-- The option for a parameter: its name or its first letter, and any value, negative ones too. -/
def filterForm : Parameter → OptionForm
  | .interval => ⟨.wanted .interval, "interval", some 'i', true, true⟩
  | .ratio => ⟨.wanted .ratio, "ratio", some 'r', true, true⟩
  | .unit => ⟨.wanted .unit, "unit", some 'u', true, true⟩
  | .size => ⟨.wanted .size, "size", some 's', true, true⟩

theorem mem_ofCommand_wanted {name : Name} {p : Parameter} :
    ∀ form ∈ OptionForm.ofCommand name, form.topic = .wanted p → form = filterForm p := by
  cases name <;> cases p <;> decide

theorem topic_filterForm (p : Parameter) : (filterForm p).topic = .wanted p := by
  cases p <;> rfl

theorem mem_topics_wanted {name : Name} {p : Parameter} {text : String}
    (hw : ∀ w ∈ written, w.1 ∈ OptionForm.ofCommand name) :
    (.wanted p, text) ∈ topics written ↔ (filterForm p, text) ∈ written := by
  rw [topics, List.mem_map]
  constructor
  · rintro ⟨⟨form, text'⟩, hm, hsaid⟩
    obtain ⟨htopic, rfl⟩ := Prod.mk.inj hsaid
    rwa [← mem_ofCommand_wanted form (hw _ hm) htopic]
  · intro hm
    exact ⟨_, hm, by rw [topic_filterForm]⟩

/-- What the filter options say, where they are proper. -/
theorem get_wanted {name : Name} {p : Parameter} {n : Int} (hw : ∀ w ∈ written, w.1 ∈ OptionForm.ofCommand name)
    (hproper : AreProper written) : (Request.wanted ⟨topics written, [], []⟩).get p = some n ↔
      ∃ text, (filterForm p, text) ∈ written ∧ Text.integer? text.toList = some n := by
  rw [Request.wanted, Setting.get_ofFn, Option.bind_eq_some_iff]
  simp only [lookup_eq_some hproper.once, mem_topics_wanted hw]

/-- A command with a filter is read with the integers of its filter options, in whatever way and order these
are written, and whatever other options stand among them. The text of any integer of 64 bits gives this integer,
and a parameter without an option stays open. -/
theorem ofArguments?_filter {word : String} {name : Name} {first behind : List String}
    {before written : List (OptionForm × String)} (hname : Name.ofText? word = some name)
    (hcommand : name = .query ∨ name = .summary ∧ ∃ text, (OptionForm.metric, text) ∈ written)
    (hfirst : Spells before first) (hbefore : ∀ w ∈ before, w.1 = .database) (hproper : AreProper before)
    (hbehind : Spells written behind) (hwritten : ∀ w ∈ written, w.1 ∈ OptionForm.ofCommand name)
    (hproper' : AreProper written) :
    ∃ option task options print,
      Request.ofArguments? (first ++ word :: behind) = some (.action option (.open task)) ∧
      filtered? task = some (options, print) ∧
      (∀ p n, options.get p = some n ↔
        ∃ text, (filterForm p, text) ∈ written ∧ Text.integer? text.toList = some n) ∧
      ∀ p n, -9223372036854775808 ≤ n ∧ n ≤ 9223372036854775807 → (filterForm p, toString n) ∈ written →
        options.get p = some n := by
  have hget (p : Parameter) (n : Int) := get_wanted (p := p) (n := n) hwritten hproper'
  have hreads (action : Action) (h : Request.action? name ⟨topics written, [], []⟩ = some action) :=
    (ofArguments?_spells hname hfirst hbefore hbehind hwritten).2 ⟨hproper, hproper', action, h, rfl⟩
  rcases hcommand with rfl | ⟨rfl, text, hm⟩
  · exact ⟨_, _, _, _, hreads _ rfl, rfl, hget,
      fun p n hfits hm => (hget p n).2 ⟨_, hm, Text.integer?_toString hfits⟩⟩
  · have hmetric : (topics written).lookup .metric = some text :=
      (lookup_eq_some hproper'.once).2 (List.mem_map_of_mem hm)
    obtain ⟨metric, hread⟩ := Option.isSome_iff_exists.1 (hproper'.accepted _ (List.mem_map_of_mem hm))
    have haction : Request.action? .summary ⟨topics written, [], []⟩
        = some (.open (.summary metric (Request.wanted ⟨topics written, [], []⟩))) := by
      simp [Request.action?, hmetric, hread]
    exact ⟨_, _, _, _, hreads _ haction, rfl, hget,
      fun p n hfits hm => (hget p n).2 ⟨_, hm, Text.integer?_toString hfits⟩⟩

/-- Three of the ways, with values that start with a hyphen. -/
example : Request.ofArguments? ["query", "-i=-1", "--ratio", "-2", "--json", "-s1024"]
    = some (.action none (.open (.query ⟨some (-1), some (-2), none, some 1024⟩ true))) := by
  decide +kernel

end Command
end Campaign
