import Mathlib
import Campaign.Proofs.Grammar

/-!
# Samples that overrun their columns

A log is read or malformed, with one exception: a volume line with more numbers than a sample has columns
left for. `Overruns` says where such a line has to stand to be reached, and `read_or_malformed_iff` that
nothing else keeps a log from an answer. Only the volume line can do that: of the other two lines no more
words are looked at than there are places for.
-/

namespace Campaign.Log

/-- The counts of a first statistics line can be read, and the second has numbers at its first six odd
places, one more than there is room for. -/
def OverrunsRoom (first second : List Char) : Prop :=
  (∃ a b c, Writes id first 1 a ∧ Writes id first 3 b ∧ Writes (Text.dropEndWhile (· == '%')) first 5 c) ∧
    ∀ i < 6, ∃ v, Writes id second (2 * i + 1) v

/-- After some segments comes an attempt that succeeded, with all of its three statistics lines, and the
second of them overruns. -/
def Overruns (marker : List Char) (lines : List (List Char)) : Prop :=
  ∃ before gs heading waiting opening first second third rest,
    IsSplit marker before gs ∧ EndsWith marker heading "OK".toList ∧
    (∀ line ∈ waiting, ¬"Statistics".toList <:+: line) ∧ "Statistics".toList <:+: opening ∧
    OverrunsRoom first second ∧
    before ++ heading :: (waiting ++ opening :: first :: second :: third :: rest) = lines

variable {marker : List Char} {line done room count : Nat} {phase : Phase} {lines words : List (List Char)}
  {first second third s : List Char}

/-! ### Statistics lines -/

theorem number_ne_overrun (word : List Char) : number line word ≠ .error .overrun := by
  unfold number
  cases Value.ofNumeral? word <;> simp

theorem valuesOf_ne_overrun (s : List Char) : valuesOf line count s ≠ .error .overrun := by
  unfold valuesOf
  dsimp only
  split_ifs <;> simp

theorem counts_ne_overrun (s : List Char) : counts line s ≠ .error .overrun := by
  unfold counts
  intro h
  rcases bind_eq_error.1 h with h | ⟨values, -, h⟩
  · exact valuesOf_ne_overrun _ h
  · split at h
    · simp only [bind_eq_error, number_ne_overrun, pure, Except.pure, reduceCtorEq, and_false, exists_false,
        or_self] at h
    · cases h

theorem times_ne_overrun (s : List Char) : times line s ≠ .error .overrun := by
  unfold times
  intro h
  split at h
  · simp only [bind_eq_error, number_ne_overrun, pure, Except.pure, reduceCtorEq, and_false, exists_false,
      or_self] at h
  · cases h

/-- The numbers of a line overrun at the first for which there is no room, if all before it are numbers. -/
theorem volumeNumbers_eq_overrun : volumeNumbers line room words = .error .overrun ↔
    ∀ i ≤ room, ∃ word v, words[i]? = some word ∧ Value.ofNumeral? word = some v := by
  induction words generalizing room with
  | nil =>
    refine iff_of_false (by simp [volumeNumbers]) fun h => ?_
    obtain ⟨word, v, hw, -⟩ := h 0 (Nat.zero_le _)
    cases hw
  | cons word words ih =>
    unfold volumeNumbers
    cases hn : number line word with
    | error fault =>
      refine iff_of_false ?_ fun h => ?_
      · rintro ⟨⟩; exact number_ne_overrun _ hn
      · obtain ⟨_, v, ⟨⟩, hv⟩ := h 0 (Nat.zero_le _)
        rw [number_eq_ok.2 hv] at hn
        cases hn
    | ok v =>
      have hfirst : ∃ word' v', (word :: words)[0]? = some word' ∧ Value.ofNumeral? word' = some v' :=
        ⟨word, v, rfl, number_eq_ok.1 hn⟩
      cases room with
      | zero =>
        refine iff_of_true rfl fun i hi => ?_
        obtain rfl := Nat.le_zero.1 hi
        exact hfirst
      | succ room =>
        simp only [map_eq_error, ih]
        constructor
        · intro h i hi
          cases i with
          | zero => exact hfirst
          | succ i => exact h i (Nat.le_of_succ_le_succ hi)
        · exact fun h i hi => h (i + 1) (Nat.succ_le_succ hi)

theorem volume_eq_overrun : volume line s = .error .overrun ↔ ∀ i < 6, ∃ v, Writes id s (2 * i + 1) v := by
  have hplaces : (∀ i < 6, ∃ v, Writes id s (2 * i + 1) v) ↔
      volumeNumbers line 5 (everySecond (Text.words s)) = .error .overrun := by
    simp only [volumeNumbers_eq_overrun, writes_odd, Nat.lt_succ_iff, id]
    exact forall₂_congr fun i _ => exists_comm
  -- Nothing but the numbers can overrun: too few values and a missing third number are malformed.
  rw [hplaces, volume, bind_eq_error]
  constructor
  · rintro (h | ⟨values, hv, h⟩)
    · exact absurd h (valuesOf_ne_overrun _)
    · obtain ⟨-, rfl⟩ := valuesOf_eq_ok.1 hv
      rcases bind_eq_error.1 h with h | ⟨numbers, -, h⟩
      · exact h
      · split at h <;> cases h
  · intro h
    obtain ⟨word, v, hw, -⟩ := volumeNumbers_eq_overrun.1 h 5 le_rfl
    have hlong : 3 ≤ (everySecond (Text.words s)).length := by
      have := (List.getElem?_eq_some_iff.1 hw).1
      omega
    exact .inr ⟨_, valuesOf_eq_ok.2 ⟨hlong, rfl⟩, bind_eq_error.2 (.inl h)⟩

theorem statistics_eq_overrun :
    statistics line first second third = .error .overrun ↔ OverrunsRoom first second := by
  unfold statistics OverrunsRoom
  simp only [bind_eq_error, Prod.exists, counts_ne_overrun, volume_eq_overrun, times_ne_overrun, counts_eq_ok,
    pure, Except.pure, reduceCtorEq, and_false, exists_false, or_false, false_or]
  simp only [exists_and_right]

/-! ### Logs -/

theorem Overruns.segment {g : Segment} (hg : g.IsWellFormed marker) (h : Overruns marker lines) :
    Overruns marker (g.lines ++ lines) := by
  obtain ⟨before, gs, heading, waiting, opening, first, second, third, rest, hgs, hh, hw, ho, hover, rfl⟩ := h
  refine ⟨g.lines ++ before, g :: gs, heading, waiting, opening, first, second, third, rest,
    isSplit_cons.2 ⟨hg, before, hgs, rfl⟩, hh, hw, ho, hover, List.append_assoc _ _ _⟩

/-- What the lines are that make a reader in some phase overrun: in the wait for statistics those that
come overrun, or they are read and a later attempt overruns. -/
def OverrunsFrom (marker : List Char) : Phase → List (List Char) → Prop
  | .outcome, lines => Overruns marker lines
  | .opening, lines => ∃ waiting opening first second third rest,
      (∀ line ∈ waiting, ¬"Statistics".toList <:+: line) ∧ "Statistics".toList <:+: opening ∧
      (OverrunsRoom first second ∨ (∃ sample, StatesSample first second third sample) ∧ Overruns marker rest) ∧
      waiting ++ opening :: first :: second :: third :: rest = lines

theorem OverrunsFrom.heading {heading : List Char} (hh : EndsWith marker heading "OK".toList)
    (h : OverrunsFrom marker .opening lines) : Overruns marker (heading :: lines) := by
  obtain ⟨waiting, opening, first, second, third, rest, hw, ho, hover | ⟨⟨sample, hs⟩, hrest⟩, rfl⟩ := h
  · exact ⟨[], [], heading, waiting, opening, first, second, third, rest, ⟨by simp, rfl⟩, hh, hw, ho, hover, rfl⟩
  · have := hrest.segment (g := .succeeded heading waiting opening first second third sample) ⟨hh, hw, ho, hs⟩
    simpa [Segment.lines] using this

theorem OverrunsFrom.waiting {line : List Char} (hl : ¬"Statistics".toList <:+: line)
    (h : OverrunsFrom marker .opening lines) : OverrunsFrom marker .opening (line :: lines) := by
  obtain ⟨waiting, opening, first, second, third, rest, hw, hrest⟩ := h
  obtain ⟨ho, hover, rfl⟩ := hrest
  exact ⟨line :: waiting, opening, first, second, third, rest, List.forall_mem_cons.2 ⟨hl, hw⟩, ho, hover, rfl⟩

theorem overrunsFrom_of_samplesFrom (marker : List Char) (phase : Phase) (done : Nat) (lines : List (List Char))
    (h : samplesFrom marker phase done lines = .error .overrun) : OverrunsFrom marker phase lines := by
  induction phase, done, lines using samplesFrom_induction marker with
  | ended | waited => cases h
  | noise done line rest hl ih =>
    rw [samplesFrom_noise hl] at h
    exact (ih h).segment (g := .noise line) hl
  | failed done line rest hl ih =>
    rw [samplesFrom_failed hl, map_eq_error] at h
    exact (ih h).segment (g := .failed line) hl
  | succeeded done line rest hl ih =>
    rw [samplesFrom_succeeded hl] at h
    exact (ih h).heading hl
  | unknown done line rest word hl =>
    rw [samplesFrom_unknown hl] at h
    cases h
  | wait done line rest hl ih =>
    rw [samplesFrom_wait hl] at h
    exact (ih h).waiting hl
  | block done opening first second third rest ho ih =>
    refine ⟨[], opening, first, second, third, rest, by simp, ho, ?_, rfl⟩
    rw [samplesFrom_block ho] at h
    rcases bind_eq_error.1 h with hs | ⟨sample, hs, h⟩
    · exact .inl (statistics_eq_overrun.1 hs)
    · exact .inr ⟨⟨sample, statistics_eq_ok.1 hs⟩, ih (map_eq_error.1 h)⟩
  | cutShort done opening rest ho hshort =>
    rw [samplesFrom_cutShort ho hshort] at h
    cases h

theorem samplesFrom_of_overruns (h : Overruns marker lines) :
    samplesFrom marker .outcome done lines = .error .overrun := by
  obtain ⟨before, gs, heading, waiting, opening, first, second, third, rest, hgs, hh, hw, ho, hover, rfl⟩ := h
  rw [samplesFrom_append_of_isSplit hgs, samplesFrom_succeeded hh, samplesFrom_waiting hw, samplesFrom_block ho,
    statistics_eq_overrun.2 hover]
  rfl

/-- A log is read, or it is malformed at some line, unless it overruns. -/
theorem read_or_malformed_iff (marker : String) (text : List Char) :
    ((∃ r, read marker text = .ok r) ∨ ∃ line reason, read marker text = .error (.malformed line reason)) ↔
      ¬Overruns marker.toList (Text.lines text) := by
  have hover : read marker text = .error .overrun ↔ Overruns marker.toList (Text.lines text) :=
    map_eq_error.trans ⟨overrunsFrom_of_samplesFrom _ .outcome 0 _, samplesFrom_of_overruns⟩
  rw [← hover]
  cases read marker text with
  | ok r => simp
  | error fault => cases fault <;> simp

/-- Six numbers on a volume line keep a log from being read or malformed. -/
theorem not_forall_read_or_malformed : ¬∀ (marker : String) (text : List Char),
    (∃ r, read marker text = .ok r) ∨ ∃ line reason, read marker text = .error (.malformed line reason) := by
  intro h
  have hover : read "APP: pmpd" ("APP: pmpd OK\nStatistics\npackets 100 retrans 5 loss 2%\n" ++
      "frags 3 frames 10 bytes 1500 a 1 b 2 c 3\ntime 120 (30)\n").toList = .error .overrun := by decide +kernel
  rcases h _ _ with ⟨r, hr⟩ | ⟨line, reason, hr⟩
  · cases hover.symm.trans hr
  · cases hover.symm.trans hr

end Campaign.Log
