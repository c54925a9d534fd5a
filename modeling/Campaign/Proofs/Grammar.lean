import Mathlib
import Campaign.Log
import Campaign.Proofs.Matrix
import Campaign.Proofs.Statistics
import Campaign.Proofs.Words

/-!
# The grammar of logs

A log is a sequence of segments: noise, a failed attempt, or a successful attempt with its statistics
after it. A log is read if and only if its lines split into segments, and then it tells of the samples
of these segments (`read_eq_ok`). There is only one way to split. The lines themselves are what stands
between the line feeds of the text (`lines_eq_iff`).
-/

namespace Campaign

/-! ### Lines -/

namespace Text
variable {s : List Char} {ls : List (List Char)}

/-- The text without a carriage return at its end. -/
def withoutReturn (s : List Char) : List Char :=
  if s.getLast? = some '\r' then s.dropLast else s

theorem closeLine_reverse (s : List Char) : closeLine s.reverse = withoutReturn s := by
  rcases s.eq_nil_or_concat' with rfl | ⟨s, c, rfl⟩
  · rfl
  · rw [List.reverse_concat, withoutReturn, List.getLast?_concat, List.dropLast_concat]
    by_cases hc : c = '\r'
    · subst hc
      rw [if_pos rfl, closeLine, List.reverse_reverse]
    · rw [if_neg (by simpa using hc)]
      unfold closeLine
      split
      next heq => exact absurd (List.cons.inj heq).1 hc
      · rw [List.reverse_cons, List.reverse_reverse]

theorem linesAfter_append_of_not_mem (h : '\n' ∉ s) (line rest : List Char) :
    linesAfter line (s ++ rest) = linesAfter (s.reverse ++ line) rest := by
  induction s generalizing line with
  | nil => rfl
  | cons c s ih =>
    have hc : c ≠ '\n' := fun hc => h (hc ▸ List.mem_cons_self)
    rw [List.cons_append, linesAfter, if_neg hc, ih fun hm => h (List.mem_cons_of_mem _ hm)]
    simp

/-- What stands before the first line feed is the first line. -/
theorem lines_append_of_not_mem (h : '\n' ∉ s) (rest : List Char) :
    lines (s ++ '\n' :: rest) = withoutReturn s :: lines rest := by
  rw [lines, linesAfter_append_of_not_mem h, List.append_nil, linesAfter, if_pos rfl, closeLine_reverse, lines]

theorem lines_of_not_mem (h : '\n' ∉ s) : lines s = if s = [] then [] else [s] := by
  have hs := linesAfter_append_of_not_mem h [] []
  rw [List.append_nil, List.append_nil] at hs
  rw [lines, hs, linesAfter]
  simp

theorem exists_stretches (s : List Char) : ∃ (stretches : List (List Char)) (last : List Char),
    (∀ t ∈ stretches, '\n' ∉ t) ∧ '\n' ∉ last ∧ s = stretches.flatMap (· ++ ['\n']) ++ last := by
  induction s with
  | nil => exact ⟨[], [], by simp⟩
  | cons c s ih =>
    obtain ⟨stretches, last, hs, hlast, rfl⟩ := ih
    by_cases hc : c = '\n'
    · exact ⟨[] :: stretches, last, by simpa using hs, hlast, by simp [hc]⟩
    · cases stretches with
      | nil => exact ⟨[], c :: last, by simp, by simp [Ne.symm hc, hlast], by simp⟩
      | cons t stretches =>
        obtain ⟨ht, hs⟩ := List.forall_mem_cons.1 hs
        exact ⟨(c :: t) :: stretches, last, List.forall_mem_cons.2 ⟨by simp [Ne.symm hc, ht], hs⟩, hlast, by simp⟩

theorem lines_stretches {stretches : List (List Char)} {last : List Char} (h : ∀ t ∈ stretches, '\n' ∉ t)
    (hlast : '\n' ∉ last) : lines (stretches.flatMap (· ++ ['\n']) ++ last)
      = stretches.map withoutReturn ++ if last = [] then [] else [last] := by
  induction stretches with
  | nil => exact lines_of_not_mem hlast
  | cons t stretches ih =>
    obtain ⟨ht, hs⟩ := List.forall_mem_cons.1 h
    rw [List.flatMap_cons, List.append_assoc, List.append_assoc, List.singleton_append,
      lines_append_of_not_mem ht, ih hs]
    rfl

/-- The lines of a text are the stretches that end at its line feeds, each without a carriage return at its end,
and what follows the last line feed, unless that is nothing. -/
theorem lines_eq_iff : lines s = ls ↔ ∃ (stretches : List (List Char)) (last : List Char),
    (∀ t ∈ stretches, '\n' ∉ t) ∧ '\n' ∉ last ∧ s = stretches.flatMap (· ++ ['\n']) ++ last ∧
      ls = stretches.map withoutReturn ++ if last = [] then [] else [last] := by
  constructor
  · rintro rfl
    obtain ⟨stretches, last, h, hlast, rfl⟩ := exists_stretches s
    exact ⟨stretches, last, h, hlast, rfl, lines_stretches h hlast⟩
  · rintro ⟨stretches, last, h, hlast, rfl, rfl⟩
    exact lines_stretches h hlast

end Text

/-! ### Segments -/

namespace Log

/-- A stretch of lines that tells of one attempt at most. -/
inductive Segment where
  | noise (line : List Char)
  | failed (line : List Char)
  /-- A heading, lines that do not open statistics, one that does, and three lines that state a
  sample. -/
  | succeeded (heading : List Char) (waiting : List (List Char)) (opening first second third : List Char)
      (sample : Sample)

namespace Segment

def lines : Segment → List (List Char)
  | noise line => [line]
  | failed line => [line]
  | succeeded heading waiting opening first second third _ =>
    heading :: waiting ++ [opening, first, second, third]

/-- The sample of the attempt, if the segment tells of one. -/
def sample? : Segment → Option Sample
  | noise _ => none
  | failed _ => some .failed
  | succeeded _ _ _ _ _ _ sample => some sample

/-- The lines are of the kinds that the segment takes them for. -/
def IsWellFormed (marker : List Char) : Segment → Prop
  | noise line => IsNoise marker line
  | failed line => EndsWith marker line "Failed".toList
  | succeeded heading waiting opening first second third sample =>
    EndsWith marker heading "OK".toList ∧ (∀ line ∈ waiting, ¬"Statistics".toList <:+: line) ∧
      "Statistics".toList <:+: opening ∧ StatesSample first second third sample

end Segment

/-- The segments are those of the lines, one after another. -/
structure IsSplit (marker : List Char) (lines : List (List Char)) (gs : List Segment) : Prop where
  wellFormed : ∀ g ∈ gs, g.IsWellFormed marker
  lines : gs.flatMap Segment.lines = lines

variable {marker : List Char} {lines : List (List Char)} {gs gs' : List Segment} {g : Segment}
  {done : Nat} {samples : List Sample}

theorem isSplit_cons : IsSplit marker lines (g :: gs) ↔
    g.IsWellFormed marker ∧ ∃ rest, IsSplit marker rest gs ∧ g.lines ++ rest = lines := by
  constructor
  · rintro ⟨hg, hl⟩
    exact ⟨hg g List.mem_cons_self, _, ⟨fun g' h => hg g' (List.mem_cons_of_mem _ h), rfl⟩, hl⟩
  · rintro ⟨hg, rest, h, rfl⟩
    exact ⟨List.forall_mem_cons.2 ⟨hg, h.wellFormed⟩, by rw [List.flatMap_cons, h.lines]⟩

/-! ### One line after another -/

theorem samplesFrom_noise {line : List Char} (hl : IsNoise marker line) :
    samplesFrom marker .outcome done (line :: lines) = samplesFrom marker .outcome (done + 1) lines := by
  rw [samplesFrom, Heading.ofLine_eq_noise.2 hl]

theorem samplesFrom_failed {line : List Char} (hl : EndsWith marker line "Failed".toList) :
    samplesFrom marker .outcome done (line :: lines)
      = (samplesFrom marker .outcome (done + 1) lines).map (Sample.failed :: ·) := by
  rw [samplesFrom, Heading.ofLine_eq_failed.2 hl]

theorem samplesFrom_succeeded {line : List Char} (hl : EndsWith marker line "OK".toList) :
    samplesFrom marker .outcome done (line :: lines) = samplesFrom marker .opening (done + 1) lines := by
  rw [samplesFrom, Heading.ofLine_eq_succeeded.2 hl]

theorem samplesFrom_unknown {line word : List Char} (hl : Heading.ofLine marker line = .unknown word) :
    samplesFrom marker .outcome done (line :: lines)
      = .error (.malformed (done + 1) (.unknownOutcome (String.ofList word))) := by
  rw [samplesFrom, hl]

theorem samplesFrom_wait {line : List Char} (hl : ¬"Statistics".toList <:+: line) :
    samplesFrom marker .opening done (line :: lines) = samplesFrom marker .opening (done + 1) lines := by
  conv_lhs => unfold samplesFrom
  rw [if_neg (mt opensStatistics_iff.1 hl)]

/-- After a line that opens statistics, the next three lines decide. -/
theorem samplesFrom_block {opening first second third : List Char} (ho : "Statistics".toList <:+: opening) :
    samplesFrom marker .opening done (opening :: first :: second :: third :: lines)
      = statistics (done + 2) first second third >>=
          fun sample => (samplesFrom marker .outcome (done + 4) lines).map (sample :: ·) := by
  conv_lhs => unfold samplesFrom
  rw [if_pos (opensStatistics_iff.2 ho)]
  cases hs : statistics (done + 2) first second third <;> simp only [hs] <;> rfl

theorem samplesFrom_cutShort {opening : List Char} (ho : "Statistics".toList <:+: opening)
    (hshort : lines.length < 3) :
    samplesFrom marker .opening done (opening :: lines) = .error (.malformed (done + 2) .cutShort) := by
  conv_lhs => unfold samplesFrom
  rw [if_pos (opensStatistics_iff.2 ho)]
  match lines, hshort with
  | [], _ | [_], _ | [_, _], _ => rfl

/-- Induction along a reader, with a case for each way it has to go on. -/
@[elab_as_elim]
theorem samplesFrom_induction (marker : List Char) {motive : Phase → Nat → List (List Char) → Prop}
    (ended : ∀ done, motive .outcome done [])
    (waited : ∀ done, motive .opening done [])
    (noise : ∀ done line rest, IsNoise marker line →
      motive .outcome (done + 1) rest → motive .outcome done (line :: rest))
    (failed : ∀ done line rest, EndsWith marker line "Failed".toList →
      motive .outcome (done + 1) rest → motive .outcome done (line :: rest))
    (succeeded : ∀ done line rest, EndsWith marker line "OK".toList →
      motive .opening (done + 1) rest → motive .outcome done (line :: rest))
    (unknown : ∀ done line rest word, Heading.ofLine marker line = .unknown word →
      motive .outcome done (line :: rest))
    (wait : ∀ done line rest, ¬"Statistics".toList <:+: line →
      motive .opening (done + 1) rest → motive .opening done (line :: rest))
    (block : ∀ done opening first second third rest, "Statistics".toList <:+: opening →
      motive .outcome (done + 4) rest → motive .opening done (opening :: first :: second :: third :: rest))
    (cutShort : ∀ done opening rest, "Statistics".toList <:+: opening → rest.length < 3 →
      motive .opening done (opening :: rest))
    (phase : Phase) (done : Nat) (lines : List (List Char)) : motive phase done lines := by
  -- A block takes four lines at once, so the induction is on how many lines are left.
  induction hn : lines.length using Nat.strong_induction_on generalizing phase done lines with
  | h n ih =>
    subst hn
    cases lines with
    | nil =>
      cases phase with
      | outcome => exact ended done
      | opening => exact waited done
    | cons line rest =>
      have hrest (phase : Phase) (done : Nat) : motive phase done rest :=
        ih _ (Nat.lt_succ_self _) phase done rest rfl
      cases phase with
      | outcome =>
        cases hline : Heading.ofLine marker line with
        | noise => exact noise done line rest (Heading.ofLine_eq_noise.1 hline) (hrest _ _)
        | failed => exact failed done line rest (Heading.ofLine_eq_failed.1 hline) (hrest _ _)
        | succeeded => exact succeeded done line rest (Heading.ofLine_eq_succeeded.1 hline) (hrest _ _)
        | unknown word => exact unknown done line rest word hline
      | opening =>
        by_cases ho : "Statistics".toList <:+: line
        · by_cases hshort : rest.length < 3
          · exact cutShort done line rest ho hshort
          · obtain ⟨first, second, third, after, rfl⟩ : ∃ first second third after,
                rest = first :: second :: third :: after := by
              match rest, hshort with
              | first :: second :: third :: after, _ => exact ⟨first, second, third, after, rfl⟩
              | [], h | [_], h | [_, _], h => simp at h
            exact block done line first second third after ho (ih _ (by simp; omega) _ _ _ rfl)
        · exact wait done line rest ho (hrest _ _)

/-! ### From readings to splits -/

/-- What the lines are of which a reader in some phase makes samples: a split, or in the wait for
statistics the rest of a successful attempt and a split after it. -/
def Reads (marker : List Char) : Phase → List (List Char) → List Sample → Prop
  | .outcome, lines, samples => ∃ gs, IsSplit marker lines gs ∧ gs.filterMap Segment.sample? = samples
  | .opening, lines, samples => ∃ waiting opening first second third sample rest gs,
      (∀ line ∈ waiting, ¬"Statistics".toList <:+: line) ∧ "Statistics".toList <:+: opening ∧
      StatesSample first second third sample ∧ IsSplit marker rest gs ∧
      waiting ++ opening :: first :: second :: third :: rest = lines ∧
      sample :: gs.filterMap Segment.sample? = samples

theorem Reads.waiting {line : List Char} (hl : ¬"Statistics".toList <:+: line)
    (h : Reads marker .opening lines samples) : Reads marker .opening (line :: lines) samples := by
  obtain ⟨waiting, opening, first, second, third, sample, rest, gs, hw, hrest⟩ := h
  obtain ⟨ho, hs, hgs, rfl, rfl⟩ := hrest
  exact ⟨line :: waiting, opening, first, second, third, sample, rest, gs, List.forall_mem_cons.2 ⟨hl, hw⟩,
    ho, hs, hgs, rfl, rfl⟩

theorem Reads.heading {line : List Char} (hl : EndsWith marker line "OK".toList)
    (h : Reads marker .opening lines samples) : Reads marker .outcome (line :: lines) samples := by
  obtain ⟨waiting, opening, first, second, third, sample, rest, gs, hw, ho, hs, hgs, rfl, rfl⟩ := h
  refine ⟨.succeeded line waiting opening first second third sample :: gs, isSplit_cons.2 ⟨⟨hl, hw, ho, hs⟩,
    rest, hgs, ?_⟩, rfl⟩
  simp [Segment.lines]

theorem reads_of_samplesFrom (phase : Phase) (done : Nat) (lines : List (List Char)) {samples : List Sample}
    (h : samplesFrom marker phase done lines = .ok samples) : Reads marker phase lines samples := by
  induction phase, done, lines using samplesFrom_induction marker generalizing samples with
  | ended done =>
    obtain rfl := Except.ok.inj h
    exact ⟨[], ⟨by simp, rfl⟩, rfl⟩
  | waited done => cases h
  | noise done line rest hl ih =>
    rw [samplesFrom_noise hl] at h
    obtain ⟨gs, hgs, rfl⟩ := ih h
    exact ⟨.noise line :: gs, isSplit_cons.2 ⟨hl, rest, hgs, rfl⟩, rfl⟩
  | failed done line rest hl ih =>
    rw [samplesFrom_failed hl] at h
    obtain ⟨more, hmore, rfl⟩ := map_eq_ok.1 h
    obtain ⟨gs, hgs, rfl⟩ := ih hmore
    exact ⟨.failed line :: gs, isSplit_cons.2 ⟨hl, rest, hgs, rfl⟩, rfl⟩
  | succeeded done line rest hl ih =>
    rw [samplesFrom_succeeded hl] at h
    exact (ih h).heading hl
  | unknown done line rest word hl =>
    rw [samplesFrom_unknown hl] at h
    cases h
  | wait done line rest hl ih =>
    rw [samplesFrom_wait hl] at h
    exact (ih h).waiting hl
  | block done opening first second third rest ho ih =>
    rw [samplesFrom_block ho] at h
    obtain ⟨sample, hs, h⟩ := bind_eq_ok.1 h
    obtain ⟨more, hmore, rfl⟩ := map_eq_ok.1 h
    obtain ⟨gs, hgs, rfl⟩ := ih hmore
    exact ⟨[], opening, first, second, third, sample, rest, gs, by simp, ho, statistics_eq_ok.1 hs, hgs, rfl, rfl⟩
  | cutShort done opening rest ho hshort =>
    rw [samplesFrom_cutShort ho hshort] at h
    cases h

/-! ### From splits to readings -/

theorem samplesFrom_waiting {waiting : List (List Char)} (hw : ∀ line ∈ waiting, ¬"Statistics".toList <:+: line) :
    samplesFrom marker .opening done (waiting ++ lines)
      = samplesFrom marker .opening (done + waiting.length) lines := by
  induction waiting generalizing done with
  | nil => rfl
  | cons line waiting ih =>
    obtain ⟨hl, hw⟩ := List.forall_mem_cons.1 hw
    rw [List.cons_append, samplesFrom_wait hl, ih hw, List.length_cons, Nat.add_assoc, Nat.add_comm 1]

/-- A segment in front of other lines gives its sample, if it has one, and the other lines are read as
they are without it. -/
theorem samplesFrom_segment (hg : g.IsWellFormed marker) :
    samplesFrom marker .outcome done (g.lines ++ lines)
      = (samplesFrom marker .outcome (done + g.lines.length) lines).map (g.sample?.toList ++ ·) := by
  cases g with
  | noise line =>
    show samplesFrom marker .outcome done (line :: lines) = _
    rw [samplesFrom_noise hg]
    exact (congrFun Except.map_id _).symm
  | failed line =>
    exact samplesFrom_failed hg
  | succeeded heading waiting opening first second third sample =>
    obtain ⟨hh, hw, ho, hs⟩ := hg
    have hl : (Segment.succeeded heading waiting opening first second third sample).lines ++ lines
        = heading :: (waiting ++ opening :: first :: second :: third :: lines) := by simp [Segment.lines]
    have hlength : (Segment.succeeded heading waiting opening first second third sample).lines.length
        = 1 + waiting.length + 4 := by simp [Segment.lines]; omega
    rw [hl, samplesFrom_succeeded hh, samplesFrom_waiting hw, samplesFrom_block ho, statistics_eq_ok.2 hs, hlength]
    simp only [Nat.add_assoc]
    rfl

/-- Lines that split into segments give the samples of these, whatever follows. -/
theorem samplesFrom_append_of_isSplit (h : IsSplit marker lines gs) (more : List (List Char)) :
    samplesFrom marker .outcome done (lines ++ more)
      = (samplesFrom marker .outcome (done + lines.length) more).map (gs.filterMap Segment.sample? ++ ·) := by
  induction gs generalizing done lines with
  | nil => obtain rfl := h.lines; exact (congrFun Except.map_id _).symm
  | cons g gs ih =>
    obtain ⟨hg, rest, hgs, rfl⟩ := isSplit_cons.1 h
    rw [List.append_assoc, samplesFrom_segment hg, ih hgs, map_map, List.length_append, Nat.add_assoc]
    congr 1
    funext samples
    cases hs : g.sample? <;> simp [hs]

theorem samplesFrom_of_isSplit (h : IsSplit marker lines gs) :
    samplesFrom marker .outcome done lines = .ok (gs.filterMap Segment.sample?) := by
  have happend : samplesFrom marker .outcome done (lines ++ [])
      = (samplesFrom marker .outcome (done + lines.length) []).map (gs.filterMap Segment.sample? ++ ·) :=
    samplesFrom_append_of_isSplit h []
  rw [List.append_nil, samplesFrom] at happend
  rw [happend, Except.map, List.append_nil]

/-! ### One way to split -/

theorem StatesSample.unique {first second third : List Char} {sample sample' : Sample}
    (h : StatesSample first second third sample) (h' : StatesSample first second third sample') :
    sample = sample' := by
  have hs : statistics 1 first second third = .ok sample := statistics_eq_ok.2 h
  exact Except.ok.inj (hs.symm.trans (statistics_eq_ok.2 h'))

/-- The wait for statistics ends at the first line that opens them. -/
theorem takeWhile_waiting {waiting rest : List (List Char)} {opening : List Char}
    (hw : ∀ line ∈ waiting, ¬"Statistics".toList <:+: line) (ho : "Statistics".toList <:+: opening) :
    (waiting ++ opening :: rest).takeWhile (fun line => !opensStatistics line) = waiting := by
  have hwaits : ∀ line ∈ waiting, (!opensStatistics line) = true := fun line hl => by
    rw [Bool.not_eq_true', ← Bool.not_eq_true]; exact mt opensStatistics_iff.1 (hw line hl)
  rw [List.takeWhile_append_of_pos hwaits, List.takeWhile_cons_of_neg (by simp [opensStatistics_iff.2 ho]),
    List.append_nil]

/-- What a line says, if a segment starts with it. -/
def Segment.heading : Segment → Heading
  | noise _ => .noise
  | failed _ => .failed
  | succeeded .. => .succeeded

theorem Segment.IsWellFormed.exists_cons (h : g.IsWellFormed marker) :
    ∃ line more, g.lines = line :: more ∧ Heading.ofLine marker line = g.heading := by
  cases g with
  | noise line => exact ⟨line, [], rfl, Heading.ofLine_eq_noise.2 h⟩
  | failed line => exact ⟨line, [], rfl, Heading.ofLine_eq_failed.2 h⟩
  | succeeded => exact ⟨_, _, rfl, Heading.ofLine_eq_succeeded.2 h.1⟩

theorem Segment.IsWellFormed.unique {g' : Segment} {rest rest' : List (List Char)} (h : g.IsWellFormed marker)
    (h' : g'.IsWellFormed marker) (hl : g.lines ++ rest = g'.lines ++ rest') : g = g' ∧ rest = rest' := by
  have hheading : g.heading = g'.heading := by
    obtain ⟨line, more, he, hg⟩ := h.exists_cons
    obtain ⟨line', more', he', hg'⟩ := h'.exists_cons
    rw [he, he', List.cons_append, List.cons_append, List.cons.injEq] at hl
    rw [← hg, ← hg', hl.1]
  match g, g', hheading with
  | noise line, noise line', _ =>
    obtain ⟨rfl, rfl⟩ := List.cons.inj hl
    exact ⟨rfl, rfl⟩
  | failed line, failed line', _ =>
    obtain ⟨rfl, rfl⟩ := List.cons.inj hl
    exact ⟨rfl, rfl⟩
  | succeeded heading waiting opening first second third sample,
      succeeded heading' waiting' opening' first' second' third' sample', _ =>
    obtain ⟨-, hw, ho, hs⟩ := h
    obtain ⟨-, hw', ho', hs'⟩ := h'
    simp only [Segment.lines, List.cons_append, List.append_assoc, List.nil_append, List.cons.injEq] at hl
    obtain ⟨rfl, hl⟩ := hl
    obtain rfl : waiting = waiting' := by
      rw [← takeWhile_waiting hw ho, hl, takeWhile_waiting hw' ho']
    obtain ⟨rfl, rfl, rfl, rfl, rfl⟩ := by simpa only [List.append_cancel_left_eq, List.cons.injEq] using hl
    exact ⟨by rw [hs.unique hs'], rfl⟩

theorem IsSplit.unique (h : IsSplit marker lines gs) (h' : IsSplit marker lines gs') : gs = gs' := by
  induction gs generalizing lines gs' with
  | nil =>
    cases gs' with
    | nil => rfl
    | cons g' gs' =>
      obtain ⟨hg', rest', -, hl⟩ := isSplit_cons.1 h'
      obtain ⟨line, more, he, -⟩ := hg'.exists_cons
      rw [he, ← h.lines] at hl
      cases hl
  | cons g gs ih =>
    obtain ⟨hg, rest, hgs, hl⟩ := isSplit_cons.1 h
    cases gs' with
    | nil =>
      obtain ⟨line, more, he, -⟩ := hg.exists_cons
      rw [he, ← h'.lines] at hl
      cases hl
    | cons g' gs' =>
      obtain ⟨hg', rest', hgs', hl'⟩ := isSplit_cons.1 h'
      obtain ⟨rfl, rfl⟩ := hg.unique hg' (hl.trans hl'.symm)
      rw [ih hgs hgs']

/-! ### Logs -/

/-- A log is read if and only if its lines split into segments. The split is the only one, and what is
read are the samples of its segments in order; no matrix is read if there are none. -/
theorem read_eq_ok (marker : String) (text : List Char) :
    (∀ r, read marker text = .ok r ↔ ∃ gs, IsSplit marker.toList (Text.lines text) gs ∧
      gs.filterMap Segment.sample? = r.elim [] Matrix.rows) ∧
    Set.Subsingleton {gs | IsSplit marker.toList (Text.lines text) gs} := by
  refine ⟨fun r => ?_, fun gs h gs' h' => h.unique h'⟩
  rw [read, map_eq_ok]
  constructor
  · rintro ⟨samples, hs, hr⟩
    obtain ⟨gs, hgs, rfl⟩ := reads_of_samplesFrom .outcome 0 _ hs
    exact ⟨gs, hgs, Matrix.ofRows?_eq_iff.1 hr⟩
  · rintro ⟨gs, hgs, hr⟩
    exact ⟨_, samplesFrom_of_isSplit hgs, Matrix.ofRows?_eq_iff.2 hr⟩

/-- A log with noise, an attempt that failed and one that succeeded. -/
example : (read "APP: pmpd" ("start\nAPP: pmpd Failed\r\nAPP: pmpd OK\nwaiting\nStatistics\n" ++
      "packets 100 retrans 5 loss 2%\nfrags 3 frames 10 bytes 1500\ntime 120 (30)").toList).map
        (Option.map Matrix.rows)
    = .ok (some [.failed, ⟨⟨0x4059000000000000⟩, ⟨0x4014000000000000⟩, ⟨0x4000000000000000⟩,
        ⟨0x4008000000000000⟩, ⟨0x4024000000000000⟩, ⟨0x4097700000000000⟩, ⟨0x405E000000000000⟩,
        ⟨0x403E000000000000⟩⟩]) := by
  decide +kernel

end Log
end Campaign
