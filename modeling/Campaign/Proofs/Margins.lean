import Mathlib
import Campaign.Proofs.Grammar

/-!
# Blanks around lines

A line tells the same with blanks around it and without: they belong to no word, and no blank stands in the
text that opens statistics. So two logs are read alike, or refused alike, if their lines are the same up to
the blanks around them (`read_of_trim_eq`).
-/

namespace Campaign

namespace Text

/-! ### Texts with blanks around them -/

theorem exists_eq_trim (s : List Char) :
    ∃ l r, s = l ++ (trim s ++ r) ∧ (∀ c ∈ l, isBlank c = true) ∧ ∀ c ∈ r, isBlank c = true := by
  set t := s.dropWhile isBlank with ht
  refine ⟨s.takeWhile isBlank, (t.reverse.takeWhile isBlank).reverse, ?_, fun c hc => List.mem_takeWhile_imp hc,
    fun c hc => List.mem_takeWhile_imp (List.mem_reverse.1 hc)⟩
  have hr : trim s ++ (t.reverse.takeWhile isBlank).reverse = t := by
    rw [trim, dropAround, dropEndWhile, ← ht, ← List.reverse_append, List.takeWhile_append_dropWhile,
      List.reverse_reverse]
  rw [hr, ht, List.takeWhile_append_dropWhile]

theorem words_blanks_append {l : List Char} (hl : ∀ c ∈ l, isBlank c = true) (s : List Char) :
    words (l ++ s) = words s := by
  induction l with
  | nil => rfl
  | cons c l ih =>
    obtain ⟨hc, hl⟩ := List.forall_mem_cons.1 hl
    have hwords : words (c :: (l ++ s)) = closeWord [] ++ words (l ++ s) := by
      rw [words, wordsAfter, if_pos hc]; rfl
    rw [List.cons_append, hwords, ih hl]; rfl

theorem wordsAfter_append_blanks {r : List Char} (hr : ∀ c ∈ r, isBlank c = true) (word s : List Char) :
    wordsAfter word (s ++ r) = wordsAfter word s := by
  induction s generalizing word with
  | nil =>
    cases r with
    | nil => rfl
    | cons c r =>
      obtain ⟨hc, hr⟩ := List.forall_mem_cons.1 hr
      have hnone : wordsAfter [] r = [] := words_eq_nil.2 hr
      show wordsAfter word (c :: r) = closeWord word
      rw [wordsAfter, if_pos hc, hnone, List.append_nil]
  | cons c s ih =>
    rw [List.cons_append, wordsAfter, wordsAfter, ih, ih]

theorem words_trim (s : List Char) : words (trim s) = words s := by
  obtain ⟨l, r, hs, hl, hr⟩ := exists_eq_trim s
  calc words (trim s) = words (trim s ++ r) := (wordsAfter_append_blanks hr [] _).symm
    _ = words (l ++ (trim s ++ r)) := (words_blanks_append hl _).symm
    _ = words s := by rw [← hs]

/-- A piece without blanks does not reach into blanks before a text. -/
theorem infix_blanks_append {needle l s : List Char} (hn : ∀ c ∈ needle, ¬isBlank c = true) (hne : needle ≠ [])
    (hl : ∀ c ∈ l, isBlank c = true) : needle <:+: l ++ s ↔ needle <:+: s := by
  induction l with
  | nil => rfl
  | cons c l ih =>
    obtain ⟨hc, hl⟩ := List.forall_mem_cons.1 hl
    have hprefix : ¬needle <+: c :: (l ++ s) := by
      intro h
      cases needle with
      | nil => exact hne rfl
      | cons n needle =>
        obtain ⟨rfl, -⟩ := List.cons_prefix_cons.1 h
        exact hn n List.mem_cons_self hc
    rw [List.cons_append, List.infix_cons_iff, or_iff_right hprefix, ih hl]

theorem infix_trim_iff {needle s : List Char} (hn : ∀ c ∈ needle, ¬isBlank c = true) (hne : needle ≠ []) :
    needle <:+: trim s ↔ needle <:+: s := by
  obtain ⟨l, r, hs, hl, hr⟩ := exists_eq_trim s
  have hend : needle <:+: trim s ++ r ↔ needle <:+: trim s := by
    rw [← List.reverse_infix, List.reverse_append, infix_blanks_append (by simpa using hn) (by simpa using hne)
      (by simpa using hr), List.reverse_infix]
  calc needle <:+: trim s ↔ needle <:+: trim s ++ r := hend.symm
    _ ↔ needle <:+: l ++ (trim s ++ r) := (infix_blanks_append hn hne hl).symm
    _ ↔ needle <:+: s := by rw [← hs]

theorem trim_append_blank {c : Char} (hc : isBlank c = true) (s : List Char) : trim (s ++ [c]) = trim s := by
  unfold trim dropAround
  rw [List.dropWhile_append]
  cases hs : s.dropWhile isBlank with
  | nil => simp [hc]
  | cons d s => simp [dropEndWhile, hc]

/-! ### Carriage returns -/

/-- The text with a carriage return before each line feed. -/
def withReturns (s : List Char) : List Char :=
  s.flatMap fun c => if c = '\n' then ['\r', '\n'] else [c]

theorem trim_closeLine (line : List Char) : trim (closeLine line) = trim line.reverse := by
  unfold closeLine
  split
  · rw [List.reverse_cons, trim_append_blank (by decide)]
  · rfl

theorem linesAfter_withReturns (line s : List Char) : List.Forall₂ (fun l l' => trim l = trim l')
    (linesAfter line (withReturns s)) (linesAfter line s) := by
  induction s generalizing line with
  | nil => exact List.forall₂_same.2 fun _ _ => rfl
  | cons c s ih =>
    by_cases hc : c = '\n'
    · subst hc
      have hlines : linesAfter line (withReturns ('\n' :: s))
          = closeLine ('\r' :: line) :: linesAfter [] (withReturns s) := by
        simp [withReturns, linesAfter]
      rw [hlines, linesAfter, if_pos rfl]
      exact .cons (trim_closeLine line).symm (ih [])
    · have hlines : linesAfter line (withReturns (c :: s)) = linesAfter (c :: line) (withReturns s) := by
        simp [withReturns, linesAfter, hc]
      rw [hlines, linesAfter, if_neg hc]
      exact ih (c :: line)

end Text

namespace Log
variable {marker : List Char} {done : Nat} {line line' : List Char}

/-! ### What lines tell -/

theorem isNoise_congr (h : Text.trim line = Text.trim line') : IsNoise marker line ↔ IsNoise marker line' := by
  rw [IsNoise, IsNoise, h]

theorem endsWith_congr {word : List Char} (h : Text.trim line = Text.trim line') :
    EndsWith marker line word ↔ EndsWith marker line' word := by
  rw [EndsWith, EndsWith, h]

theorem ofLine_congr (h : Text.trim line = Text.trim line') :
    Heading.ofLine marker line = Heading.ofLine marker line' := by
  simp only [Heading.ofLine, Heading.word?, h]

theorem statistics_infix_congr (h : Text.trim line = Text.trim line') :
    "Statistics".toList <:+: line ↔ "Statistics".toList <:+: line' := by
  have hn : ∀ c ∈ "Statistics".toList, ¬Text.isBlank c = true := by simp [Text.isBlank]
  rw [← Text.infix_trim_iff hn (by decide), h, Text.infix_trim_iff hn (by decide)]

theorem words_congr (h : Text.trim line = Text.trim line') : Text.words line = Text.words line' := by
  rw [← Text.words_trim, h, Text.words_trim]

theorem statistics_congr {first second third first' second' third' : List Char}
    (h₁ : Text.trim first = Text.trim first') (h₂ : Text.trim second = Text.trim second')
    (h₃ : Text.trim third = Text.trim third') :
    statistics done first second third = statistics done first' second' third' := by
  simp only [statistics, counts, volume, times, valuesOf, words_congr h₁, words_congr h₂, words_congr h₃]

/-- Lines that are the same up to blanks around them are read alike, in each phase and wherever they
stand. -/
theorem samplesFrom_congr (marker : List Char) (phase : Phase) (done : Nat) (lines lines' : List (List Char))
    (h : List.Forall₂ (fun l l' => Text.trim l = Text.trim l') lines lines') :
    samplesFrom marker phase done lines = samplesFrom marker phase done lines' := by
  induction phase, done, lines using samplesFrom_induction marker generalizing lines' with
  | ended done | waited done => cases h; rfl
  | noise done line rest hl ih =>
    obtain _ | ⟨hline, hrest⟩ := h
    rw [samplesFrom_noise hl, samplesFrom_noise ((isNoise_congr hline).1 hl), ih _ hrest]
  | failed done line rest hl ih =>
    obtain _ | ⟨hline, hrest⟩ := h
    rw [samplesFrom_failed hl, samplesFrom_failed ((endsWith_congr hline).1 hl), ih _ hrest]
  | succeeded done line rest hl ih =>
    obtain _ | ⟨hline, hrest⟩ := h
    rw [samplesFrom_succeeded hl, samplesFrom_succeeded ((endsWith_congr hline).1 hl), ih _ hrest]
  | unknown done line rest word hl =>
    obtain _ | ⟨hline, hrest⟩ := h
    rw [samplesFrom_unknown hl, samplesFrom_unknown (ofLine_congr hline ▸ hl)]
  | wait done line rest hl ih =>
    obtain _ | ⟨hline, hrest⟩ := h
    rw [samplesFrom_wait hl, samplesFrom_wait (mt (statistics_infix_congr hline).2 hl), ih _ hrest]
  | block done opening first second third rest ho ih =>
    obtain _ | ⟨hopening, _ | ⟨h₁, _ | ⟨h₂, _ | ⟨h₃, hrest⟩⟩⟩⟩ := h
    rw [samplesFrom_block ho, samplesFrom_block ((statistics_infix_congr hopening).1 ho),
      statistics_congr h₁ h₂ h₃, ih _ hrest]
  | cutShort done opening rest ho hshort =>
    obtain _ | ⟨hopening, hrest⟩ := h
    rw [samplesFrom_cutShort ho hshort, samplesFrom_cutShort ((statistics_infix_congr hopening).1 ho)
      (hrest.length_eq ▸ hshort)]

theorem read_congr (marker : String) {a b : List Char}
    (h : List.Forall₂ (fun l l' => Text.trim l = Text.trim l') (Text.lines a) (Text.lines b)) :
    read marker a = read marker b := by
  rw [read, read, samples, samples, samplesFrom_congr _ _ _ _ _ h]

/-- Two texts with as many lines, each the same as the other up to the blanks around it, come to the same
matrix, to the same reason in the same line, or to a sample that overruns its columns in both. So it does not
matter whether the lines of a text end with carriage returns. -/
theorem read_of_trim_eq (marker : String) :
    (∀ a b : List Char, List.Forall₂ (fun l l' => Text.trim l = Text.trim l') (Text.lines a) (Text.lines b) →
      read marker a = read marker b) ∧
    ∀ a, read marker (Text.withReturns a) = read marker a :=
  ⟨fun _ _ h => read_congr marker h, fun a => read_congr marker (Text.linesAfter_withReturns [] a)⟩

/-- Carriage returns, tabs, a no-break space and an ideographic space around the lines of an attempt, and an
outcome that is none behind it. -/
theorem read_of_trim_eq_indented :
    let a := "APP: pmpd OK\n\tStatistics\r\np 1 r 1 l 1%\n f 1 f 1 b 1\r\r\nt 1 (1)\nAPP: pmpd Maybe".toList
    let b := "\u00a0APP: pmpd OK\r\nStatistics\n\u3000p 1 r 1 l 1%\t\nf 1 f 1 b 1\nt 1 (1) \nAPP: pmpd Maybe\r".toList
    read "APP: pmpd" a = .error (.malformed 6 (.unknownOutcome "Maybe")) ∧
      read "APP: pmpd" b = .error (.malformed 6 (.unknownOutcome "Maybe")) := by
  intro a b
  have ha : read "APP: pmpd" a = .error (.malformed 6 (.unknownOutcome "Maybe")) := by decide +kernel
  have hlines : List.Forall₂ (fun l l' => Text.trim l = Text.trim l') (Text.lines a) (Text.lines b) := by
    refine List.forall₂_iff_get.2 ⟨by decide +kernel, ?_⟩
    decide +kernel
  exact ⟨ha, ((read_of_trim_eq "APP: pmpd").1 a b hlines).symm.trans ha⟩

end Log
end Campaign
