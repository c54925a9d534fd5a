import Mathlib
import Campaign.Proofs.Attempts

/-!
# Attempts without numbers

The sample of a failed attempt has no number in any column. Statistics lines can state such a sample too,
when all their values are `nan`, and only then: a log that is read has as many samples without numbers as
it has outcomes of failed attempts and blocks of such lines (`failedAttempts_eq`).
-/

namespace Campaign

namespace Value
variable {s word : List Char} {negative : Bool} {place : Nat} {v : Value}

/-- `nan` in any case, with a sign or without. -/
def IsNaNWord (word : List Char) : Prop :=
  (Text.splitSign word).2.map Char.toLower = "nan".toList

instance (word : List Char) : Decidable (IsNaNWord word) :=
  inferInstanceAs (Decidable (_ = _))

/-! ### Numerals that write no number -/

theorem infinityPlace_lt : infinityPlace < signWeight := by decide

theorem place_ofPlace (h : place < signWeight) : (ofPlace negative place).place = place := by
  have hbits : place + (if negative then signWeight else 0) < 2 ^ 64 := by
    unfold signWeight at h ⊢
    split_ifs <;> omega
  rw [Value.place, ofPlace, UInt64.toNat_ofNat', Nat.mod_eq_of_lt hbits]
  split_ifs
  · rw [Nat.add_mod_right, Nat.mod_eq_of_lt h]
  · exact Nat.mod_eq_of_lt h

theorem isNaN_ofPlace (h : place < signWeight) :
    (ofPlace negative place).isNaN = true ↔ infinityPlace < place := by
  rw [isNaN, place_ofPlace h, decide_eq_true_eq]

theorem placeOfDecimal_le (digits : Nat) (exponent : Int) : placeOfDecimal digits exponent ≤ infinityPlace := by
  unfold placeOfDecimal
  dsimp only
  split_ifs
  · exact Nat.zero_le _
  · exact le_rfl
  · exact Nat.zero_le _
  · exact Nat.min_le_left _ _
  · exact Nat.min_le_left _ _

theorem decimalPlace?_le (h : decimalPlace? s = some place) : place ≤ infinityPlace := by
  unfold decimalPlace? at h
  dsimp only at h
  split_ifs at h
  obtain ⟨e, -, rfl⟩ := Option.map_eq_some_iff.1 h
  exact placeOfDecimal_le _ _

theorem not_isDigit_of_toLower {c : Char} (h : c.toLower = 'n') : c.isDigit = false := by
  by_contra hdigit
  simp only [Char.isDigit, Bool.not_eq_false, Bool.and_eq_true, decide_eq_true_eq] at hdigit
  have hnine : c.val.toNat ≤ 57 := UInt32.le_iff_toNat_le.1 hdigit.2
  unfold Char.toLower at h
  split_ifs at h with hupper
  · have hletter : 65 ≤ c.val.toNat := UInt32.le_iff_toNat_le.1 hupper.1
    omega
  · subst h
    exact absurd hnine (by decide)

/-- `nan` has neither digits nor a point to start with. -/
theorem decimalPlace?_nan (h : s.map Char.toLower = "nan".toList) : decimalPlace? s = none := by
  cases s with
  | nil => cases h
  | cons c s =>
    have hc : c.toLower = 'n' := (List.cons.inj h).1
    have hdigit := not_isDigit_of_toLower hc
    have hpoint : c ≠ '.' := by rintro rfl; exact absurd hc (by decide)
    have hfraction : splitFraction (c :: s) = ([], c :: s) := by
      unfold splitFraction
      split
      next heq => exact absurd (List.cons.inj heq).1 hpoint
      next => rfl
    have htake : (c :: s).takeWhile Char.isDigit = [] := List.takeWhile_cons_of_neg (by simp [hdigit])
    have hdrop : (c :: s).dropWhile Char.isDigit = c :: s := List.dropWhile_cons_of_neg (by simp [hdigit])
    unfold decimalPlace?
    simp only [htake, hdrop, hfraction, and_self, if_true]

theorem magnitude?_eq_some (h : magnitude? s = some place) :
    place < signWeight ∧ (infinityPlace < place ↔ s.map Char.toLower = "nan".toList) := by
  unfold magnitude? at h
  split at h
  next decimal hdecimal =>
    obtain rfl := Option.some.inj h
    have hle := decimalPlace?_le hdecimal
    refine ⟨hle.trans_lt infinityPlace_lt, iff_of_false (Nat.not_lt.2 hle) fun hnan => ?_⟩
    rw [decimalPlace?_nan hnan] at hdecimal
    cases hdecimal
  next =>
    dsimp only at h
    split_ifs at h with hinfinity hnan
    · obtain rfl := Option.some.inj h
      refine ⟨infinityPlace_lt, iff_of_false (Nat.lt_irrefl _) fun hs => ?_⟩
      rw [hs] at hinfinity
      exact absurd hinfinity (by decide)
    · obtain rfl := Option.some.inj h
      exact ⟨by decide, iff_of_true (by decide) (by rw [← hnan, String.toList_ofList])⟩

/-- A numeral reads as no number exactly if it is `nan`. -/
theorem isNaN_ofNumeral? (h : ofNumeral? word = some v) : v.isNaN = true ↔ IsNaNWord word := by
  obtain ⟨place, hplace, rfl⟩ : ∃ place, magnitude? (Text.splitSign word).2 = some place ∧
      ofPlace (Text.splitSign word).1 place = v := Option.map_eq_some_iff.1 h
  obtain ⟨hlt, hnan⟩ := magnitude?_eq_some hplace
  rw [isNaN_ofPlace hlt, hnan, IsNaNWord]

end Value

namespace Log
variable {marker line : List Char} {first second third : List Char} {sample : Sample} {g : Segment}
  {gs : List Segment} {lines : List (List Char)} {met : List (Role × List Char)}

structure Block where
  first : List Char
  second : List Char
  third : List Char
deriving DecidableEq, Repr

/-- The blocks of lines that are taken for statistics. -/
def blocks : List (Role × List Char) → List Block
  | (.first, first) :: (.second, second) :: (.third, third) :: met => ⟨first, second, third⟩ :: blocks met
  | _ :: met => blocks met
  | [] => []

/-- The word at a place of a line, counted from 0, is `nan` once `clean` is done with it. -/
def NamesNaN (clean : List Char → List Char) (line : List Char) (place : Nat) : Prop :=
  ∃ word ∈ (Text.words line)[place]?, Value.IsNaNWord (clean word)

instance (clean : List Char → List Char) (line : List Char) (place : Nat) :
    Decidable (NamesNaN clean line place) :=
  inferInstanceAs (Decidable (∃ word ∈ (Text.words line)[place]?, _))

/-- All eight values of a block are `nan`, the percent signs behind the third and the parentheses around the
last aside. -/
def LacksNumbers (block : Block) : Prop :=
  (NamesNaN id block.first 1 ∧ NamesNaN id block.first 3 ∧
    NamesNaN (Text.dropEndWhile (· == '%')) block.first 5) ∧
  (NamesNaN id block.second 1 ∧ NamesNaN id block.second 3 ∧ NamesNaN id block.second 5) ∧
  NamesNaN id block.third 1 ∧ NamesNaN (Text.dropAround fun c => c == '(' || c == ')') block.third 2

instance (block : Block) : Decidable (LacksNumbers block) :=
  inferInstanceAs (Decidable ((_ ∧ _ ∧ _) ∧ (_ ∧ _ ∧ _) ∧ _ ∧ _))

instance (marker line word : List Char) : Decidable (EndsWith marker line word) :=
  decidable_of_iff _ Heading.word?_eq_some

theorem Writes.isNaN_iff {clean : List Char → List Char} {place : Nat} {v : Value}
    (h : Writes clean line place v) : v.isNaN = true ↔ NamesNaN clean line place := by
  obtain ⟨word, hword, hv⟩ := h
  rw [NamesNaN, hword, Value.isNaN_ofNumeral? hv]
  simp

theorem StatesSample.isFailed_iff (h : StatesSample first second third sample) :
    sample.isFailed = true ↔ LacksNumbers ⟨first, second, third⟩ := by
  simp only [LacksNumbers, ← h.packets.isNaN_iff, ← h.retransmissions.isNaN_iff, ← h.lossPercent.isNaN_iff,
    ← h.fragments.isNaN_iff, ← h.frames.isNaN_iff, ← h.bytes.isNaN_iff, ← h.time.isNaN_iff,
    ← h.secondaryTime.isNaN_iff]
  simp [Sample.isFailed, Sample.values, Metric.all, Sample.get, and_assoc]

/-- The line is taken for an outcome, and the outcome is `Failed`. -/
def TellsFailure (marker : List Char) (met : Role × List Char) : Prop :=
  met.1 = .outcome ∧ EndsWith marker met.2 "Failed".toList

instance (marker : List Char) (met : Role × List Char) : Decidable (TellsFailure marker met) :=
  inferInstanceAs (Decidable (_ ∧ _))

/-- The statistics lines of the attempt, if the segment tells of one that succeeded. -/
def Segment.block? : Segment → Option Block
  | noise _ => none
  | failed _ => none
  | succeeded _ _ _ first second third _ => some ⟨first, second, third⟩

theorem EndsWith.unique {word word' : List Char} (h : EndsWith marker line word)
    (h' : EndsWith marker line word') : word = word' :=
  Option.some.inj ((Heading.word?_eq_some.2 h).symm.trans (Heading.word?_eq_some.2 h'))

theorem blocks_waiting (waiting : List (List Char)) :
    blocks (waiting.map (Role.opening, ·) ++ met) = blocks met := by
  induction waiting with
  | nil => rfl
  | cons line waiting ih => exact ih

theorem blocks_segment (g : Segment) (met : List (Role × List Char)) :
    blocks (g.roles ++ met) = g.block?.toList ++ blocks met := by
  cases g with
  | noise line => rfl
  | failed line => rfl
  | succeeded heading waiting opening first second third sample =>
    rw [Segment.roles, List.cons_append, List.cons_append, List.append_assoc]
    show blocks (waiting.map (Role.opening, ·) ++ _) = _
    rw [blocks_waiting]
    rfl

theorem countP_isFailed_segment (hg : g.IsWellFormed marker) : g.sample?.toList.countP Sample.isFailed
    = g.roles.countP (TellsFailure marker ·) + g.block?.toList.countP (LacksNumbers ·) := by
  cases g with
  | noise line =>
    have hl : ¬TellsFailure marker (.outcome, line) := fun h => h.2.not_isNoise hg
    simp [Segment.roles, Segment.sample?, Segment.block?, hl]
  | failed line =>
    have hl : TellsFailure marker (.outcome, line) := ⟨rfl, hg⟩
    have hs : Sample.failed.isFailed = true := by decide
    simp [Segment.roles, Segment.sample?, Segment.block?, hl, hs]
  | succeeded heading waiting opening first second third sample =>
    obtain ⟨hh, -, -, hs⟩ := hg
    -- the only line taken for an outcome is the heading, and it ends with `OK`
    have hnone : (Segment.succeeded heading waiting opening first second third sample).roles.countP
        (TellsFailure marker ·) = 0 := by
      rw [List.countP_eq_zero]
      rintro ⟨role, line⟩ hmem htells
      obtain ⟨rfl, hfailed⟩ := of_decide_eq_true htells
      obtain rfl : line = heading := by simpa [Segment.roles] using hmem
      exact absurd (hfailed.unique hh) (by decide)
    rw [hnone, Nat.zero_add]
    by_cases hfailed : sample.isFailed = true
    · simp [Segment.sample?, Segment.block?, hfailed, hs.isFailed_iff.1 hfailed]
    · simp [Segment.sample?, Segment.block?, hfailed, mt hs.isFailed_iff.2 hfailed]

theorem countP_isFailed_of_isSplit (h : IsSplit marker lines gs) :
    (gs.filterMap Segment.sample?).countP Sample.isFailed
      = (roles marker .outcome lines).countP (TellsFailure marker ·)
        + (blocks (roles marker .outcome lines)).countP (LacksNumbers ·) := by
  rw [roles_of_isSplit h]
  have hgs := h.wellFormed
  clear h
  induction gs with
  | nil => rfl
  | cons g gs ih =>
    obtain ⟨hg, hgs⟩ := List.forall_mem_cons.1 hgs
    have hsamples : (g :: gs).filterMap Segment.sample? = g.sample?.toList ++ gs.filterMap Segment.sample? := by
      cases hs : g.sample? <;> simp [hs]
    rw [hsamples, List.flatMap_cons, blocks_segment, List.countP_append, List.countP_append, List.countP_append,
      countP_isFailed_segment hg, ih hgs]
    omega

/-- The samples without numbers of a log are those of the attempts whose outcome is `Failed` and those of the
attempts that succeeded with nothing but `nan` on their statistics lines. So they count the failed attempts
exactly if there are no such lines. -/
theorem failedAttempts_eq (mark : String) (text : List Char) (m : Matrix) (h : read mark text = .ok (some m)) :
    let met := roles mark.toList .outcome (Text.lines text)
    let failures := met.countP fun p => p.1 = .outcome ∧ EndsWith mark.toList p.2 "Failed".toList
    m.failedAttempts = failures + (blocks met).countP (LacksNumbers ·) ∧
    (m.failedAttempts = failures ↔ ∀ block ∈ blocks met, ¬LacksNumbers block) ∧
    ∀ line first second third sample, statistics line first second third = .ok sample →
      (sample.isFailed = true ↔ LacksNumbers ⟨first, second, third⟩) := by
  intro met failures
  obtain ⟨samples, hs, hm⟩ := map_eq_ok.1 h
  obtain ⟨gs, hgs, rfl⟩ := reads_of_samplesFrom .outcome 0 _ hs
  have hcount : m.failedAttempts = failures + (blocks met).countP (LacksNumbers ·) := by
    have hrows : gs.filterMap Segment.sample? = m.rows := Matrix.ofRows?_eq_iff.1 hm
    rw [Matrix.failedAttempts, ← hrows]
    exact countP_isFailed_of_isSplit hgs
  refine ⟨hcount, ?_, fun line first second third sample hs => (statistics_eq_ok.1 hs).isFailed_iff⟩
  rw [hcount, Nat.add_eq_left, List.countP_eq_zero]
  simp

/-- One attempt that failed, and one that succeeded with statistics that are all `nan`. -/
theorem failedAttempts_two : let text := ("APP: pmpd Failed\nAPP: pmpd OK\nStatistics\n" ++
      "packets nan retrans -NaN loss nan%\nfrags nan frames NAN bytes +nan\ntime nan (nan)\n").toList
    ∃ m, read "APP: pmpd" text = .ok (some m) ∧ m.failedAttempts = 2 ∧
      ((roles "APP: pmpd".toList .outcome (Text.lines text)).countP fun p =>
        p.1 = .outcome ∧ EndsWith "APP: pmpd".toList p.2 "Failed".toList) = 1 := by
  intro text
  have hread : (read "APP: pmpd" text).map (·.map Matrix.failedAttempts) = .ok (some 2) := by decide +kernel
  have hblocks : (blocks (roles "APP: pmpd".toList .outcome (Text.lines text))).countP (LacksNumbers ·)
      = 1 := by decide +kernel
  obtain ⟨r, hr, hm⟩ := map_eq_ok.1 hread
  obtain ⟨m, rfl, hcount⟩ := Option.map_eq_some_iff.1 hm
  have htwo := (failedAttempts_eq _ _ m hr).1
  rw [hcount, hblocks] at htwo
  exact ⟨m, hr, hcount, (Nat.succ.inj htwo).symm⟩

/-- The samples without numbers may be more than the attempts that failed, and three statistics lines may
state one. -/
theorem not_forall_failedAttempts :
    (¬∀ (mark : String) (text : List Char) (m : Matrix), read mark text = .ok (some m) → m.failedAttempts =
      (roles mark.toList .outcome (Text.lines text)).countP fun p =>
        p.1 = .outcome ∧ EndsWith mark.toList p.2 "Failed".toList) ∧
    ¬∀ (line : Nat) (first second third : List Char) (sample : Sample),
      statistics line first second third = .ok sample → sample.isFailed = false := by
  constructor
  · intro h
    have hread : (read "APP: pmpd" ("APP: pmpd OK\nStatistics\n" ++
        "packets nan retrans nan loss nan%\nfrags nan frames nan bytes nan\ntime nan (nan)\n").toList).map
          (·.map Matrix.failedAttempts) = .ok (some 1) := by
      decide +kernel
    obtain ⟨r, hr, hm⟩ := map_eq_ok.1 hread
    obtain ⟨m, rfl, hcount⟩ := Option.map_eq_some_iff.1 hm
    have hfailures := (h _ _ m hr).symm.trans hcount
    revert hfailures
    decide +kernel
  · intro h
    have hstated : statistics 1 "packets nan retrans nan loss nan%".toList
        "frags nan frames nan bytes nan".toList "time nan (nan)".toList = .ok .failed := by decide +kernel
    exact absurd (h _ _ _ _ _ hstated) (by decide)

end Log
end Campaign
