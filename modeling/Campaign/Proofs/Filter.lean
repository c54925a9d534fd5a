import Mathlib
import Campaign.Command
import Campaign.Proofs.Reading

/-!
# Filters in raw form

Four integers are a filter if each of them is -1 or a value of a parameter; the first that is neither is the
fault. Which keys the filter takes, and which conditions it lists, can be told from the integers alone
(`Decodes`). The filter options of a command are decoded as the integers that they give, with -1 for an option
that is left out (`ofRaw_spec`).
-/

namespace Campaign

theorem Parameter.index_inj {p q : Parameter} : p.index = q.index ↔ p = q := by
  cases p <;> cases q <;> decide

namespace Setting
variable {α β ε : Type} {f : Parameter → α → Except ε β} {s : Setting α} {e : ε}

theorem exists_of_mapM?_eq_error (h : s.mapM? f = .error e) :
    ∃ p, f p (s.get p) = .error e ∧ ∀ q, q.index < p.index → ∃ b, f q (s.get q) = .ok b := by
  unfold mapM? at h
  rcases bind_eq_error.1 h with hi | ⟨interval, hi, h⟩
  · exact ⟨.interval, hi, fun q hq => absurd hq (Nat.not_lt_zero _)⟩
  rcases bind_eq_error.1 h with hr | ⟨ratio, hr, h⟩
  · refine ⟨.ratio, hr, fun q hq => ?_⟩
    cases q with
    | interval => exact ⟨_, hi⟩
    | ratio | unit | size => simp [Parameter.index] at hq
  rcases bind_eq_error.1 h with hu | ⟨unit, hu, h⟩
  · refine ⟨.unit, hu, fun q hq => ?_⟩
    cases q with
    | interval => exact ⟨_, hi⟩
    | ratio => exact ⟨_, hr⟩
    | unit | size => simp [Parameter.index] at hq
  rcases bind_eq_error.1 h with hs | ⟨size, hs, h⟩
  · refine ⟨.size, hs, fun q hq => ?_⟩
    cases q with
    | interval => exact ⟨_, hi⟩
    | ratio => exact ⟨_, hr⟩
    | unit => exact ⟨_, hu⟩
    | size => simp [Parameter.index] at hq
  cases h

/-- The answer is the first failure. -/
theorem mapM?_eq_error : s.mapM? f = .error e ↔
    ∃ p, f p (s.get p) = .error e ∧ ∀ q, q.index < p.index → ∃ b, f q (s.get q) = .ok b := by
  refine ⟨exists_of_mapM?_eq_error, ?_⟩
  rintro ⟨p, hp, hbefore⟩
  cases hm : s.mapM? f with
  | ok t =>
    have hok := mapM?_eq_ok.1 hm p
    rw [hp] at hok
    cases hok
  | error e' =>
    -- there is one first failure only, so it is at `p`
    obtain ⟨p', hp', hbefore'⟩ := exists_of_mapM?_eq_error hm
    rcases Nat.lt_trichotomy p.index p'.index with hlt | heq | hlt
    · obtain ⟨b, hb⟩ := hbefore' p hlt
      rw [hp] at hb
      cases hb
    · obtain rfl := Parameter.index_inj.1 heq
      obtain rfl : e' = e := Except.error.inj (hp'.symm.trans hp)
      rfl
    · obtain ⟨b, hb⟩ := hbefore p' hlt
      rw [hp'] at hb
      cases hb

end Setting

namespace Filter
variable {raw : Setting Int} {f : Filter} {v : Int} {fault : Fault} {p : Parameter}

/-- An integer is open or a value of a parameter. -/
def IsField (v : Int) : Prop :=
  v = -1 ∨ 0 ≤ v ∧ v ≤ 4294967295

instance : DecidablePred IsField := fun v => inferInstanceAs (Decidable (v = -1 ∨ 0 ≤ v ∧ v ≤ 4294967295))

/-- A parameter is the first whose integer is neither open nor a value. -/
structure IsFirstBad (raw : Setting Int) (p : Parameter) : Prop where
  bad : ¬IsField (raw.get p)
  before : ∀ q, q.index < p.index → IsField (raw.get q)

/-- A filter says what four integers say. -/
structure Decodes (raw : Setting Int) (f : Filter) : Prop where
  takes_iff (k : Key) : f.takes k = true ↔ ∀ p, raw.get p = -1 ∨ raw.get p = (k.get p).toNat
  takes_iff_conditions (k : Key) : f.takes k = true ↔ ∀ c ∈ f.conditions, k.get c.1 = c.2
  conditions : (f.conditions.map fun c => (c.1.columnName, (c.2.toNat : Int)))
    = (["traffic_interval", "receive_ratio", "unit_size", "data_size"].zip raw.toList).filter fun c => c.2 ≠ -1

/-! ### One integer -/

/-- An integer is what one parameter of a filter says. -/
def Says (v : Int) : Option UInt32 → Prop
  | none => v = -1
  | some n => v = n.toNat

theorem Says.cases {field : Option UInt32} (h : Says v field) :
    field = none ∧ v = -1 ∨ ∃ n, field = some n ∧ v = n.toNat := by
  cases field with
  | none => exact .inl ⟨rfl, h⟩
  | some n => exact .inr ⟨n, rfl, h⟩

theorem says_ofNat (h : 0 ≤ v ∧ v ≤ 4294967295) : Says v (some (UInt32.ofNat v.toNat)) := by
  have hlt : v.toNat < UInt32.size := by rw [UInt32.size]; omega
  show v = (UInt32.ofNat v.toNat).toNat
  rw [UInt32.toNat_ofNat_of_lt' hlt]
  omega

theorem exists_field : (∃ field, Says v field) ↔ IsField v := by
  constructor
  · rintro ⟨field, h⟩
    rcases h.cases with ⟨-, hopen⟩ | ⟨n, -, rfl⟩
    · exact .inl hopen
    · have hn : n.toNat < 4294967296 := n.toNat_lt
      exact .inr (by omega)
  · rintro (hopen | hvalue)
    · exact ⟨none, hopen⟩
    · exact ⟨_, says_ofNat hvalue⟩

theorem fieldOfRaw_eq_ok {field : Option UInt32} : fieldOfRaw v = .ok field ↔ Says v field := by
  unfold fieldOfRaw wildcard Key.greatestField
  constructor
  · intro h
    split_ifs at h with hopen hvalue
    · obtain rfl := Except.ok.inj h
      exact hopen
    · obtain rfl := Except.ok.inj h
      exact says_ofNat hvalue
  · intro h
    rcases h.cases with ⟨rfl, hopen⟩ | ⟨n, rfl, rfl⟩
    · exact if_pos hopen
    · have hn : n.toNat < 4294967296 := n.toNat_lt
      rw [if_neg (by omega), if_pos (by omega), Int.toNat_natCast, UInt32.ofNat_toNat]

theorem exists_fieldOfRaw : (∃ field, fieldOfRaw v = .ok field) ↔ IsField v := by
  simp only [fieldOfRaw_eq_ok, exists_field]

theorem fieldOfRaw_eq_error : fieldOfRaw v = .error fault ↔ ¬IsField v ∧ fault = .filter v := by
  rw [← exists_fieldOfRaw]
  unfold fieldOfRaw
  split_ifs <;> simp [eq_comm]

/-! ### Four integers -/

theorem ofRaw_eq_ok : ofRaw raw = .ok f ↔ ∀ p, Says (raw.get p) (f.get p) := by
  simp only [ofRaw, Setting.mapM?_eq_ok, fieldOfRaw_eq_ok]

theorem exists_ofRaw : (∃ f, ofRaw raw = .ok f) ↔ ∀ p, IsField (raw.get p) := by
  simp only [ofRaw, Setting.mapM?_eq_ok, ← exists_fieldOfRaw]
  constructor
  · rintro ⟨f, hf⟩ p
    exact ⟨f.get p, hf p⟩
  · intro h
    choose field hfield using h
    exact ⟨.ofFn field, fun p => by rw [Setting.get_ofFn, hfield]⟩

theorem ofRaw_eq_error : ofRaw raw = .error fault ↔ ∃ p, IsFirstBad raw p ∧ fault = .filter (raw.get p) := by
  simp only [ofRaw, Setting.mapM?_eq_error, fieldOfRaw_eq_error, exists_fieldOfRaw]
  refine exists_congr fun p => ⟨?_, ?_⟩
  · rintro ⟨⟨hbad, hfault⟩, hbefore⟩
    exact ⟨⟨hbad, hbefore⟩, hfault⟩
  · rintro ⟨hp, hfault⟩
    exact ⟨⟨hp.bad, hfault⟩, hp.before⟩

theorem mem_conditions {c : Parameter × UInt32} : c ∈ f.conditions ↔ f.get c.1 = some c.2 := by
  rw [conditions, List.mem_filterMap]
  constructor
  · rintro ⟨p, -, h⟩
    obtain ⟨n, hn, rfl⟩ := Option.map_eq_some_iff.1 h
    exact hn
  · intro h
    exact ⟨c.1, c.1.mem_all, by rw [h]; rfl⟩

theorem takes_eq_true {k : Key} : f.takes k = true ↔ ∀ p, ∀ n ∈ f.get p, n = k.get p := by
  rw [takes, List.all_eq_true]
  simp only [Option.all_eq_true, beq_iff_eq]
  exact ⟨fun h p => h p p.mem_all, fun h p _ => h p⟩

theorem decodes_of_ofRaw (h : ofRaw raw = .ok f) : Decodes raw f := by
  have hfields := ofRaw_eq_ok.1 h
  constructor
  case takes_iff =>
    intro k
    rw [takes_eq_true]
    refine forall_congr' fun p => ?_
    rcases (hfields p).cases with ⟨hf, hp⟩ | ⟨n, hf, hp⟩
    · simp [hf, hp]
    · have hsame : n = k.get p ↔ (n.toNat : Int) = (k.get p).toNat := by
        rw [← UInt32.toNat_inj, Nat.cast_inj]
      simp only [hf, hp, Option.mem_some_iff, forall_eq', hsame]
      omega
  case takes_iff_conditions =>
    intro k
    rw [takes_eq_true]
    simp only [mem_conditions, Prod.forall]
    exact forall_congr' fun p => forall_congr' fun n => imp_congr_right fun _ => eq_comm
  case conditions =>
    have hzip : ["traffic_interval", "receive_ratio", "unit_size", "data_size"].zip raw.toList
        = Parameter.all.map fun p => (p.columnName, raw.get p) := rfl
    rw [hzip, List.filter_map, conditions, List.map_filterMap, ← List.filterMap_eq_map, ← List.filterMap_eq_filter,
      List.filterMap_filterMap]
    refine List.filterMap_congr fun p _ => ?_
    rcases (hfields p).cases with ⟨hf, hp⟩ | ⟨n, hf, hp⟩
    · simp [hf, hp, Option.guard]
    · have hn : (n.toNat : Int) ≠ -1 := by omega
      simp [hf, hp, hn, Option.guard]

end Filter

namespace Command
variable {e : Environment} {fs : Files} {settings : Settings} {store : Store} {task : Task}
  {options : Setting (Option Int)} {print : List Record → String} {raw : Setting Int}

/-- The filter options of a task that has some, and how it prints the records that they ask for. -/
def filtered? : Task → Option (Setting (Option Int) × (List Record → String))
  | .query options json => some (options, if json then Report.recordsAsJson else Report.records)
  | .summary metric options => some (options, Report.summaries metric)
  | _ => none

theorem perform_filtered (h : filtered? task = some (options, print)) :
    perform e fs settings store task = (.ofAnswer print (wanted options store), store) := by
  cases task with
  | query options' json =>
    obtain ⟨rfl, rfl⟩ := Prod.mk.inj (Option.some.inj h)
    rfl
  | summary metric options' =>
    obtain ⟨rfl, rfl⟩ := Prod.mk.inj (Option.some.inj h)
    rfl
  | ingest | keys | failed => cases h

end Command

namespace Filter
open Command

/-- Four integers decode as a filter if each is -1 or a value of a parameter, and otherwise the fault names
the first that is neither. The filter takes the keys that have the integers other than -1, and its conditions
are these integers under the names of their columns. A command with filter options asks the store for the
records of this filter, or fails with this fault, an option left out counting as -1. -/
theorem ofRaw_spec (raw : Setting Int) :
    ((∃ f, ofRaw raw = .ok f) ↔ ∀ p, raw.get p = -1 ∨ 0 ≤ raw.get p ∧ raw.get p ≤ 4294967295) ∧
    (∀ fault, ofRaw raw = .error fault ↔ ∃ p, IsFirstBad raw p ∧ fault = .filter (raw.get p)) ∧
    (∀ v, (Fault.filter v).message = "invalid filter: " ++ ("key value out of range: " ++ toString v)) ∧
    (∀ f, ofRaw raw = .ok f → Decodes raw f) ∧
    ∀ options : Setting (Option Int), (∀ p, raw.get p = (options.get p).getD (-1)) →
      ∀ (e : Environment) (fs : Files) (settings : Settings) (store : Store) (task : Task)
        (print : List Record → String), filtered? task = some (options, print) →
        (∀ f, ofRaw raw = .ok f →
          perform e fs settings store task = (.ofAnswer print (store.query f), store)) ∧
        ∀ p, IsFirstBad raw p → perform e fs settings store task = (⟨1, [], "",
          "Error: invalid filter: key value out of range: " ++ toString (raw.get p) ++ "\n"⟩, store) := by
  refine ⟨exists_ofRaw, fun fault => ofRaw_eq_error, fun v => ?_, fun f => decodes_of_ofRaw,
    fun options hoptions e fs settings store task print htask => ?_⟩
  · rfl
  have hraw : options.map (·.getD wildcard) = raw :=
    Setting.ext_get fun p => by rw [Setting.map, Setting.get_ofFn, hoptions p]; rfl
  rw [perform_filtered htask, wanted, hraw]
  refine ⟨fun f hf => ?_, fun p hp => ?_⟩
  · rw [hf]
    rfl
  · rw [ofRaw_eq_error.2 ⟨p, hp, rfl⟩]
    rfl

/-- Four integers with two open ones are decoded, and a query whose options give two integers out of range
fails because of the first of them. -/
theorem ofRaw_two :
    (∃ f, ofRaw ⟨-1, 50, -1, 1024⟩ = .ok f ∧
      (f.conditions.map fun c => (c.1.columnName, (c.2.toNat : Int))) = [("receive_ratio", 50), ("data_size", 1024)] ∧
      f.takes ⟨1, 50, 256, 1024⟩ = true) ∧
    perform ⟨[], none, none⟩ .empty .standard (.inMemory .blob)
        (.query ⟨none, some 4294967296, some (-2), some 0⟩ true)
      = (⟨1, [], "", "Error: invalid filter: key value out of range: 4294967296\n"⟩, .inMemory .blob) := by
  constructor
  · obtain ⟨hdecodes, -, -, hfields, -⟩ := ofRaw_spec ⟨-1, 50, -1, 1024⟩
    obtain ⟨f, hf⟩ := hdecodes.2 fun p => by cases p <;> decide
    have htakes := ((hfields f hf).takes_iff ⟨1, 50, 256, 1024⟩).2 fun p => by cases p <;> decide
    exact ⟨f, hf, (hfields f hf).conditions.trans (by decide), htakes⟩
  · have hfirst : IsFirstBad ⟨-1, 4294967296, -2, 0⟩ .ratio := by
      refine ⟨by decide, fun q hq => ?_⟩
      cases q with
      | interval => decide
      | ratio | unit | size => exact absurd hq (by decide)
    obtain ⟨-, -, -, -, hcommand⟩ := ofRaw_spec ⟨-1, 4294967296, -2, 0⟩
    have hoptions := hcommand ⟨none, some 4294967296, some (-2), some 0⟩ fun p => by cases p <;> rfl
    exact (hoptions ⟨[], none, none⟩ .empty .standard (.inMemory .blob) (.query _ true) _ rfl).2 .ratio hfirst

end Filter
end Campaign
