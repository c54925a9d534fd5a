import Mathlib
import Campaign.Proofs.Grammar

/-!
# Logs one behind the other

A log that is read may stand before another text: the samples of the two are merged, and what is wrong
in the second is wrong there too, as many lines further down (`read_append_of_eq_ok`).
-/

namespace Campaign

namespace Text

theorem linesAfter_append (line s t : List Char) :
    linesAfter line (s ++ '\n' :: t) = linesAfter line (s ++ ['\n']) ++ linesAfter [] t := by
  induction s generalizing line with
  | nil => rfl
  | cons c s ih =>
    rw [List.cons_append, List.cons_append, linesAfter, linesAfter]
    split_ifs
    · rw [ih, List.cons_append]
    · exact ih _

/-- The lines of a text that ends with a line feed do not run on into what follows. -/
theorem lines_append {s : List Char} (hs : s = [] ∨ s.getLast? = some '\n') (t : List Char) :
    lines (s ++ t) = lines s ++ lines t := by
  rcases hs with rfl | hs
  · rfl
  · obtain ⟨s, rfl⟩ := List.getLast?_eq_some_iff.1 hs
    rw [List.append_assoc, List.singleton_append]
    exact linesAfter_append [] s t

end Text

/-! ### Faults further down -/

/-- The fault as it is when there are more lines before. -/
def LogFault.behind (before : Nat) : LogFault → LogFault
  | .malformed line reason => .malformed (before + line) reason
  | .overrun => .overrun

namespace Log
variable {marker : List Char} {before line done room count : Nat} {phase : Phase} {lines more : List (List Char)}

theorem number_behind (word : List Char) :
    number (before + line) word = (number line word).mapError (·.behind before) := by
  unfold number
  cases Value.ofNumeral? word <;> rfl

theorem valuesOf_behind (s : List Char) :
    valuesOf (before + line) count s = (valuesOf line count s).mapError (·.behind before) := by
  unfold valuesOf
  dsimp only
  split_ifs <;> rfl

theorem volumeNumbers_behind (words : List (List Char)) :
    volumeNumbers (before + line) room words = (volumeNumbers line room words).mapError (·.behind before) := by
  induction words generalizing room with
  | nil => simp only [volumeNumbers, Except.mapError]
  | cons word words ih =>
    unfold volumeNumbers
    rw [number_behind]
    cases number line word with
    | error fault => rfl
    | ok v =>
      cases room with
      | zero => rfl
      | succ room => simp only [ih, mapError_map]; rfl

theorem counts_behind (s : List Char) :
    counts (before + line) s = (counts line s).mapError (·.behind before) := by
  simp only [counts, valuesOf_behind, number_behind, mapError_bind]
  congr 1
  funext values
  split
  · simp only [mapError_bind]; rfl
  · rfl

theorem volume_behind (s : List Char) :
    volume (before + line) s = (volume line s).mapError (·.behind before) := by
  simp only [volume, valuesOf_behind, volumeNumbers_behind, mapError_bind]
  congr 1
  funext words
  congr 1
  funext numbers
  split <;> rfl

theorem times_behind (s : List Char) : times (before + line) s = (times line s).mapError (·.behind before) := by
  unfold times
  split
  · simp only [number_behind, mapError_bind]; rfl
  · rfl

theorem statistics_behind (first second third : List Char) :
    statistics (before + line) first second third
      = (statistics line first second third).mapError (·.behind before) := by
  simp only [statistics, Nat.add_assoc before, counts_behind, volume_behind, times_behind, mapError_bind]
  rfl

/-- Lines are read in the same way wherever they stand. -/
theorem samplesFrom_behind (marker : List Char) (before : Nat) (phase : Phase) (done : Nat)
    (lines : List (List Char)) :
    samplesFrom marker phase (before + done) lines
      = (samplesFrom marker phase done lines).mapError (·.behind before) := by
  induction phase, done, lines using samplesFrom_induction marker with
  | ended done => simp only [samplesFrom, Except.mapError]
  | waited done => simp only [samplesFrom, Except.mapError]; rfl
  | noise done line rest hl ih => rw [samplesFrom_noise hl, samplesFrom_noise hl]; exact ih
  | failed done line rest hl ih =>
    rw [samplesFrom_failed hl, samplesFrom_failed hl, mapError_map]
    exact congrArg (Except.map _) ih
  | succeeded done line rest hl ih => rw [samplesFrom_succeeded hl, samplesFrom_succeeded hl]; exact ih
  | unknown done line rest word hl => rw [samplesFrom_unknown hl, samplesFrom_unknown hl]; rfl
  | wait done line rest hl ih => rw [samplesFrom_wait hl, samplesFrom_wait hl]; exact ih
  | block done opening first second third rest ho ih =>
    rw [samplesFrom_block ho, samplesFrom_block ho, mapError_bind, Nat.add_assoc, statistics_behind]
    congr 1
    funext sample
    rw [mapError_map, Nat.add_assoc, ih]
  | cutShort done opening rest ho hshort =>
    rw [samplesFrom_cutShort ho hshort, samplesFrom_cutShort ho hshort]
    rfl

/-! ### Samples one behind the other -/

/-- Lines that are read leave the reader where it began: it goes on with the next lines as with a log of
their own. -/
theorem samplesFrom_append {samples : List Sample} (h : samplesFrom marker .outcome 0 lines = .ok samples) :
    samplesFrom marker .outcome 0 (lines ++ more)
      = ((samplesFrom marker .outcome 0 more).mapError (·.behind lines.length)).map (samples ++ ·) := by
  obtain ⟨gs, hgs, rfl⟩ := reads_of_samplesFrom .outcome 0 lines h
  rw [samplesFrom_append_of_isSplit hgs, ← samplesFrom_behind, Nat.zero_add]
  rfl

/-- A log in front of another text, where the log is read and ends its last line: the matrices of both are
merged, a malformed line of the text stays malformed for the same reason, as many lines further down as
the log has, and a sample that overruns its columns still does. -/
theorem read_append_of_eq_ok (marker : String) (a b : List Char) (x : Option Matrix)
    (hend : a = [] ∨ a.getLast? = some '\n') (ha : read marker a = .ok x) :
    (∀ y, read marker b = .ok y → read marker (a ++ b) = .ok (Matrix.merge x y)) ∧
    (∀ line reason, read marker b = .error (.malformed line reason) →
      read marker (a ++ b) = .error (.malformed (line + (Text.lines a).length) reason)) ∧
    (read marker b = .error .overrun → read marker (a ++ b) = .error .overrun) := by
  obtain ⟨samples, hs, rfl⟩ := map_eq_ok.1 ha
  have hread : read marker (a ++ b)
      = ((Log.samples marker b).mapError (·.behind (Text.lines a).length)).map
          (Matrix.merge (Matrix.ofRows? samples) ∘ Matrix.ofRows?) := by
    rw [read, Log.samples, Text.lines_append hend, samplesFrom_append hs, map_map]
    congr 1
    funext samples'
    exact Matrix.ofRows?_append samples samples'
  rw [hread, read]
  cases Log.samples marker b with
  | ok samples' =>
    refine ⟨fun y hy => ?_, fun line reason h => ?_, fun h => ?_⟩
    · obtain rfl := Except.ok.inj hy
      rfl
    · cases h
    · cases h
  | error fault =>
    refine ⟨fun y hy => ?_, fun line reason h => ?_, fun h => ?_⟩
    · cases hy
    · obtain rfl := Except.error.inj h
      rw [Nat.add_comm]; rfl
    · obtain rfl := Except.error.inj h
      rfl

/-- A failed attempt in front of another, of an outcome that is none, and of six volume numbers. -/
theorem read_append_failed :
    let a := "APP: pmpd Failed\n".toList
    let overrun := "APP: pmpd OK\nStatistics\np 1 r 1 l 1\nf 1 f 1 b 1 x 1 x 1 x 1\nt 1 1".toList
    read "APP: pmpd" (a ++ a) = .ok (some ⟨[.failed, .failed], by simp⟩) ∧
    read "APP: pmpd" (a ++ "APP: pmpd Maybe".toList) = .error (.malformed 2 (.unknownOutcome "Maybe")) ∧
    read "APP: pmpd" (a ++ overrun) = .error .overrun := by
  intro a overrun
  have hend : a = [] ∨ a.getLast? = some '\n' := by decide +kernel
  have ha : read "APP: pmpd" a = .ok (some ⟨[.failed], by simp⟩) := by decide +kernel
  have happend (b : List Char) := read_append_of_eq_ok "APP: pmpd" a b _ hend ha
  exact ⟨(happend a).1 _ ha, (happend _).2.1 1 _ (by decide +kernel), (happend _).2.2 (by decide +kernel)⟩

end Log
end Campaign
