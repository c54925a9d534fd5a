import Mathlib
import Campaign.Proofs.Grammar

/-!
# Where logs break

A log that cannot be read is read up to some segment, and that segment is none: its outcome is unknown, or
the lines behind its heading do not state a sample (`samplesFrom_eq_error`). The line of the fault is the
first that no log can have there: what stands before it begins a log (`Offends`), unless the log only ends
too early. What is wrong at a line stays wrong, and the same, when more lines follow (`malformed_spec`).
-/

namespace Campaign

namespace Text
variable {l s : List Char} {ls : List (List Char)}

/-- A text with some lines. -/
def ofLines (ls : List (List Char)) : List Char :=
  ls.flatMap (· ++ ['\r', '\n'])

theorem withoutReturn_concat (l : List Char) : withoutReturn (l ++ ['\r']) = l := by
  simp [withoutReturn]

theorem lines_ofLines (h : ∀ l ∈ ls, '\n' ∉ l) : lines (ofLines ls) = ls := by
  refine lines_eq_iff.2 ⟨ls.map (· ++ ['\r']), [], fun t ht => ?_, List.not_mem_nil, ?_, ?_⟩
  · obtain ⟨l, hl, rfl⟩ := List.mem_map.1 ht
    simpa using h l hl
  · simp [ofLines, List.flatMap_map]
  · simp [Function.comp_def, withoutReturn_concat]

theorem newline_not_mem_lines : ∀ l ∈ lines s, '\n' ∉ l := by
  obtain ⟨stretches, last, h, hlast, -, hlines⟩ := lines_eq_iff.1 (rfl : lines s = lines s)
  rw [hlines, List.forall_mem_append]
  constructor
  · intro l hl
    obtain ⟨t, ht, rfl⟩ := List.mem_map.1 hl
    unfold withoutReturn
    split_ifs
    · exact fun hm => h t ht (List.mem_of_mem_dropLast hm)
    · exact h t ht
  · split_ifs <;> simp [hlast]

end Text

/-- The log only ends too early. -/
def LogReason.IsEnd (reason : LogReason) : Prop :=
  reason = .cutShort ∨ reason = .noStatistics

/-- The fault is one of a line, if it is one of the format at all. -/
def LogFault.IsOf (line : Nat) : LogFault → Prop
  | .malformed n reason => n = line ∧ ¬reason.IsEnd
  | .overrun => True

namespace Log
/-- How the lines behind the heading of a successful attempt fail to state its sample; `done` lines stand
before them. -/
inductive Unstated (done : Nat) : List (List Char) → LogFault → Prop
  | noStatistics {lines : List (List Char)} {n : Nat} (h : ∀ line ∈ lines, ¬"Statistics".toList <:+: line)
    (hn : n = done + lines.length + 1) : Unstated done lines (.malformed n .noStatistics)
  | cutShort {waiting rest : List (List Char)} {opening : List Char} {n : Nat}
    (hw : ∀ line ∈ waiting, ¬"Statistics".toList <:+: line) (ho : "Statistics".toList <:+: opening)
    (hshort : rest.length < 3) (hn : n = done + waiting.length + 2) :
    Unstated done (waiting ++ opening :: rest) (.malformed n .cutShort)
  | statistics {waiting rest : List (List Char)} {opening first second third : List Char} {n : Nat}
    {fault : LogFault} (hw : ∀ line ∈ waiting, ¬"Statistics".toList <:+: line)
    (ho : "Statistics".toList <:+: opening) (hs : statistics n first second third = .error fault)
    (hn : n = done + waiting.length + 2) :
    Unstated done (waiting ++ opening :: first :: second :: third :: rest) fault

/-- How lines break the format behind the segments that they begin with. -/
inductive Breaks (marker : List Char) (done : Nat) : List (List Char) → LogFault → Prop
  | outcome {before rest : List (List Char)} {gs : List Segment} {line word : List Char} {n : Nat}
    (hgs : IsSplit marker before gs) (hl : Heading.ofLine marker line = .unknown word)
    (hn : n = done + before.length + 1) :
    Breaks marker done (before ++ line :: rest) (.malformed n (.unknownOutcome (String.ofList word)))
  | attempt {before rest : List (List Char)} {gs : List Segment} {heading : List Char} {m : Nat}
    {fault : LogFault} (hgs : IsSplit marker before gs) (hh : EndsWith marker heading "OK".toList)
    (hu : Unstated m rest fault) (hm : m = done + before.length + 1) :
    Breaks marker done (before ++ heading :: rest) fault

variable {marker heading opening first second third line bad : List Char} {done n m room count : Nat}
  {lines before waiting rest words : List (List Char)} {gs : List Segment} {fault : LogFault}
  {reason : LogReason} {word s : List Char}

/-! ### Faults of statistics lines -/

theorem number_isOf (h : number n word = .error fault) : fault.IsOf n := by
  unfold number at h
  split at h
  · cases h
  · obtain rfl := Except.error.inj h
    exact ⟨rfl, by simp [LogReason.IsEnd]⟩

theorem valuesOf_isOf (h : valuesOf n count s = .error fault) : fault.IsOf n := by
  unfold valuesOf at h
  dsimp only at h
  split_ifs at h
  obtain rfl := Except.error.inj h
  exact ⟨rfl, by simp [LogReason.IsEnd]⟩

theorem counts_isOf (h : counts n s = .error fault) : fault.IsOf n := by
  unfold counts at h
  rcases bind_eq_error.1 h with h | ⟨values, -, h⟩
  · exact valuesOf_isOf h
  split at h
  · simp only [bind_eq_error, pure, Except.pure, reduceCtorEq, and_false, exists_false, or_false] at h
    rcases h with h | ⟨_, -, h | ⟨_, -, h⟩⟩ <;> exact number_isOf h
  · obtain rfl := Except.error.inj h
    exact ⟨rfl, by simp [LogReason.IsEnd]⟩

theorem volumeNumbers_isOf (h : volumeNumbers n room words = .error fault) : fault.IsOf n := by
  induction words generalizing room with
  | nil => simp [volumeNumbers] at h
  | cons word words ih =>
    unfold volumeNumbers at h
    split at h
    next hn => exact Except.error.inj h ▸ number_isOf hn
    · obtain rfl := Except.error.inj h
      trivial
    · exact ih (map_eq_error.1 h)

theorem volume_isOf (h : volume n s = .error fault) : fault.IsOf n := by
  unfold volume at h
  rcases bind_eq_error.1 h with h | ⟨values, -, h⟩
  · exact valuesOf_isOf h
  rcases bind_eq_error.1 h with h | ⟨numbers, -, h⟩
  · exact volumeNumbers_isOf h
  split at h
  · cases h
  · obtain rfl := Except.error.inj h
    exact ⟨rfl, by simp [LogReason.IsEnd]⟩

theorem times_isOf (h : times n s = .error fault) : fault.IsOf n := by
  unfold times at h
  split at h
  · simp only [bind_eq_error, pure, Except.pure, reduceCtorEq, and_false, exists_false, or_false] at h
    rcases h with h | ⟨_, -, h⟩ <;> exact number_isOf h
  · obtain rfl := Except.error.inj h
    exact ⟨rfl, by simp [LogReason.IsEnd]⟩

/-- Whether three lines state a sample can be told line by line. -/
theorem exists_statesSample_iff (n₁ n₂ n₃ : Nat) : (∃ sample, StatesSample first second third sample) ↔
    (∃ c, counts n₁ first = .ok c) ∧ (∃ v, volume n₂ second = .ok v) ∧ ∃ t, times n₃ third = .ok t := by
  constructor
  · rintro ⟨sample, hs⟩
    exact ⟨⟨_, counts_eq_ok.2 ⟨hs.packets, hs.retransmissions, hs.lossPercent⟩⟩,
      ⟨_, volume_eq_ok.2 ⟨⟨hs.fragments, hs.frames, hs.bytes⟩, hs.volume⟩⟩,
      ⟨_, times_eq_ok.2 ⟨hs.time, hs.secondaryTime⟩⟩⟩
  · rintro ⟨⟨⟨a, b, c⟩, hc⟩, ⟨⟨d, e, f⟩, hv⟩, ⟨⟨g, h⟩, ht⟩⟩
    obtain ⟨ha, hb, hc⟩ := counts_eq_ok.1 hc
    obtain ⟨⟨hd, he, hf⟩, hv⟩ := volume_eq_ok.1 hv
    obtain ⟨hg, hh⟩ := times_eq_ok.1 ht
    exact ⟨⟨a, b, c, d, e, f, g, h⟩, ⟨ha, hb, hc, hd, he, hf, hv, hg, hh⟩⟩

theorem statistics_eq_error : statistics n first second third = .error fault ↔
    counts n first = .error fault ∨ (∃ c, counts n first = .ok c) ∧ (volume (n + 1) second = .error fault ∨
      (∃ v, volume (n + 1) second = .ok v) ∧ times (n + 2) third = .error fault) := by
  unfold statistics
  simp only [bind_eq_error, pure, Except.pure, reduceCtorEq, and_false, exists_false, or_false]
  simp only [exists_and_right]

theorem not_isEnd_of_statistics (h : statistics n first second third = .error (.malformed m reason)) :
    ¬reason.IsEnd := by
  rcases statistics_eq_error.1 h with hc | ⟨-, hv | ⟨-, ht⟩⟩
  · exact (counts_isOf hc).2
  · exact (volume_isOf hv).2
  · exact (times_isOf ht).2

/-! ### How lines break the format -/

theorem isSplit_nil : IsSplit marker [] [] := ⟨by simp, rfl⟩

theorem Unstated.wait (hl : ¬"Statistics".toList <:+: line) (h : Unstated (done + 1) lines fault) :
    Unstated done (line :: lines) fault := by
  have hmore {waiting : List (List Char)} (hw : ∀ line ∈ waiting, ¬"Statistics".toList <:+: line) :
      ∀ line' ∈ line :: waiting, ¬"Statistics".toList <:+: line' := List.forall_mem_cons.2 ⟨hl, hw⟩
  have hlength (waiting : List (List Char)) :
      done + 1 + waiting.length = done + (line :: waiting).length := by simp; omega
  cases h with
  | noStatistics hw hn => exact .noStatistics (hmore hw) (by rw [hn, hlength])
  | cutShort hw ho hshort hn =>
    rw [← List.cons_append]
    exact .cutShort (hmore hw) ho hshort (by rw [hn, hlength])
  | statistics hw ho hs hn =>
    rw [← List.cons_append]
    exact .statistics (hmore hw) ho hs (by rw [hn, hlength])

theorem Breaks.segment {g : Segment} (hg : g.IsWellFormed marker)
    (h : Breaks marker (done + g.lines.length) lines fault) : Breaks marker done (g.lines ++ lines) fault := by
  have hmore {before : List (List Char)} {gs : List Segment} (hgs : IsSplit marker before gs) :
      IsSplit marker (g.lines ++ before) (g :: gs) := isSplit_cons.2 ⟨hg, before, hgs, rfl⟩
  have hlength (before : List (List Char)) :
      done + g.lines.length + before.length = done + (g.lines ++ before).length := by simp; omega
  cases h with
  | outcome hgs hl hn =>
    rw [← List.append_assoc]
    exact .outcome (hmore hgs) hl (by rw [hn, hlength])
  | attempt hgs hh hu hm =>
    rw [← List.append_assoc]
    exact .attempt (hmore hgs) hh hu (by rw [hm, hlength])

/-- What keeps a reader in some phase from the samples of lines. -/
def BreaksFrom (marker : List Char) : Phase → (done : Nat) → List (List Char) → LogFault → Prop
  | .outcome, done, lines, fault => Breaks marker done lines fault
  | .opening, done, lines, fault => Unstated done lines fault ∨
      ∃ waiting opening first second third sample rest,
        (∀ line ∈ waiting, ¬"Statistics".toList <:+: line) ∧ "Statistics".toList <:+: opening ∧
        StatesSample first second third sample ∧ Breaks marker (done + waiting.length + 4) rest fault ∧
        waiting ++ opening :: first :: second :: third :: rest = lines

theorem BreaksFrom.wait (hl : ¬"Statistics".toList <:+: line)
    (h : BreaksFrom marker .opening (done + 1) lines fault) :
    BreaksFrom marker .opening done (line :: lines) fault := by
  rcases h with h | ⟨waiting, opening, first, second, third, sample, rest, hw, ho, hs, hrest, rfl⟩
  · exact .inl (h.wait hl)
  · refine .inr ⟨line :: waiting, opening, first, second, third, sample, rest, List.forall_mem_cons.2 ⟨hl, hw⟩,
      ho, hs, ?_, rfl⟩
    rwa [show done + (line :: waiting).length = done + 1 + waiting.length by simp; omega]

theorem BreaksFrom.succeeded (hh : EndsWith marker heading "OK".toList)
    (h : BreaksFrom marker .opening (done + 1) lines fault) : Breaks marker done (heading :: lines) fault := by
  rcases h with h | ⟨waiting, opening, first, second, third, sample, rest, hw, ho, hs, hrest, rfl⟩
  · exact Breaks.attempt isSplit_nil hh h rfl
  · have hg : (Segment.succeeded heading waiting opening first second third sample).IsWellFormed marker :=
      ⟨hh, hw, ho, hs⟩
    have hlength : (Segment.succeeded heading waiting opening first second third sample).lines.length
        = 1 + waiting.length + 4 := by simp [Segment.lines]; omega
    rw [show done + 1 + waiting.length + 4 = done + (1 + waiting.length + 4) by omega, ← hlength] at hrest
    simpa [Segment.lines] using hrest.segment hg

theorem breaksFrom_of_samplesFrom (phase : Phase) (done : Nat) (lines : List (List Char))
    (h : samplesFrom marker phase done lines = .error fault) : BreaksFrom marker phase done lines fault := by
  have hnone : ∀ line ∈ ([] : List (List Char)), ¬"Statistics".toList <:+: line := by simp
  induction phase, done, lines using samplesFrom_induction marker with
  | ended done => cases h
  | waited done =>
    obtain rfl := Except.error.inj h
    exact .inl (.noStatistics hnone rfl)
  | noise done line rest hl ih =>
    rw [samplesFrom_noise hl] at h
    exact (ih h).segment (g := .noise line) hl
  | failed done line rest hl ih =>
    rw [samplesFrom_failed hl, map_eq_error] at h
    exact (ih h).segment (g := .failed line) hl
  | succeeded done line rest hl ih =>
    rw [samplesFrom_succeeded hl] at h
    exact (ih h).succeeded hl
  | unknown done line rest word hl =>
    rw [samplesFrom_unknown hl] at h
    obtain rfl := Except.error.inj h
    exact Breaks.outcome isSplit_nil hl rfl
  | wait done line rest hl ih =>
    rw [samplesFrom_wait hl] at h
    exact (ih h).wait hl
  | block done opening first second third rest ho ih =>
    rw [samplesFrom_block ho] at h
    rcases bind_eq_error.1 h with hs | ⟨sample, hs, h⟩
    · exact .inl (.statistics hnone ho hs rfl)
    · exact .inr ⟨[], opening, first, second, third, sample, rest, hnone, ho, statistics_eq_ok.1 hs,
        ih (map_eq_error.1 h), rfl⟩
  | cutShort done opening rest ho hshort =>
    rw [samplesFrom_cutShort ho hshort] at h
    obtain rfl := Except.error.inj h
    exact .inl (.cutShort hnone ho hshort rfl)

theorem Unstated.samplesFrom_eq (h : Unstated done lines fault) :
    samplesFrom marker .opening done lines = .error fault := by
  cases h with
  | noStatistics hw hn =>
    have hwait : samplesFrom marker .opening done (lines ++ [])
        = samplesFrom marker .opening (done + lines.length) [] := samplesFrom_waiting hw
    rw [List.append_nil] at hwait
    rw [hwait, hn, samplesFrom]
  | cutShort hw ho hshort hn => rw [samplesFrom_waiting hw, samplesFrom_cutShort ho hshort, hn]
  | statistics hw ho hs hn => rw [samplesFrom_waiting hw, samplesFrom_block ho, ← hn, hs]; rfl

/-- Lines are read up to where they break the format, and only there. -/
theorem samplesFrom_eq_error :
    samplesFrom marker .outcome done lines = .error fault ↔ Breaks marker done lines fault := by
  refine ⟨breaksFrom_of_samplesFrom .outcome done lines, fun h => ?_⟩
  cases h with
  | outcome hgs hl hn => rw [samplesFrom_append_of_isSplit hgs, samplesFrom_unknown hl, hn]; rfl
  | attempt hgs hh hu hm =>
    rw [samplesFrom_append_of_isSplit hgs, samplesFrom_succeeded hh, ← hm, hu.samplesFrom_eq]; rfl

/-! ### The first line that cannot be -/

/-- Statistics lines that state zeros. -/
def zeroCounts : List Char := "packets 0 retrans 0 loss 0%".toList
def zeroVolume : List Char := "frags 0 frames 0 bytes 0".toList
def zeroTimes : List Char := "time 0 (0)".toList

theorem counts_zeroCounts (n : Nat) : ∃ c, counts n zeroCounts = .ok c := by
  have h : counts 1 zeroCounts = .ok (⟨0⟩, ⟨0⟩, ⟨0⟩) := by decide +kernel
  exact ⟨_, counts_eq_ok.2 (counts_eq_ok.1 h)⟩

theorem volume_zeroVolume (n : Nat) : ∃ v, volume n zeroVolume = .ok v := by
  have h : volume 1 zeroVolume = .ok (⟨0⟩, ⟨0⟩, ⟨0⟩) := by decide +kernel
  exact ⟨_, volume_eq_ok.2 (volume_eq_ok.1 h)⟩

theorem times_zeroTimes (n : Nat) : ∃ t, times n zeroTimes = .ok t := by
  have h : times 1 zeroTimes = .ok (⟨0⟩, ⟨0⟩) := by decide +kernel
  exact ⟨_, times_eq_ok.2 (times_eq_ok.1 h)⟩

theorem newline_not_mem_zero : ∀ l ∈ [zeroCounts, zeroVolume, zeroTimes], '\n' ∉ l := by
  decide +kernel

/-- Lines that begin with `good` may go on so that they are read, but not with `bad`. -/
structure Offends (marker : List Char) (good : List (List Char)) (bad : List Char) : Prop where
  viable : ∃ more gs, (∀ l ∈ more, '\n' ∉ l) ∧ IsSplit marker (good ++ more) gs
  refused : ∀ more gs, ¬IsSplit marker (good ++ bad :: more) gs

section
variable (hgs : IsSplit marker before gs) (hh : EndsWith marker heading "OK".toList)
  (hw : ∀ line ∈ waiting, ¬"Statistics".toList <:+: line) (ho : "Statistics".toList <:+: opening)
include hgs hh hw ho

theorem isSplit_succeeded {sample : Sample} (hs : StatesSample first second third sample) :
    ∃ gs', IsSplit marker (before ++ heading :: (waiting ++ opening :: [first, second, third])) gs' := by
  refine ⟨gs ++ [.succeeded heading waiting opening first second third sample],
    List.forall_mem_append.2 ⟨hgs.wellFormed, ?_⟩, ?_⟩
  · rw [List.forall_mem_singleton]
    exact ⟨hh, hw, ho, hs⟩
  · rw [List.flatMap_append, hgs.lines]
    simp [Segment.lines]

/-- Behind the heading of a successful attempt and what opens its statistics, lines that are read state its
sample. -/
theorem exists_statesSample_of_isSplit {gs' : List Segment}
    (h : IsSplit marker (before ++ heading :: (waiting ++ opening :: rest)) gs') :
    ∃ first second third more sample, rest = first :: second :: third :: more ∧
      StatesSample first second third sample := by
  have hread : samplesFrom marker .outcome 0 (before ++ heading :: (waiting ++ opening :: rest)) = .ok _ :=
    samplesFrom_of_isSplit h
  rw [samplesFrom_append_of_isSplit hgs, samplesFrom_succeeded hh, samplesFrom_waiting hw] at hread
  obtain ⟨samples, hs, -⟩ := map_eq_ok.1 hread
  by_cases hshort : rest.length < 3
  · rw [samplesFrom_cutShort ho hshort] at hs
    cases hs
  · obtain ⟨first, second, third, more, rfl⟩ := exists_three (Nat.not_lt.1 hshort)
    rw [samplesFrom_block ho] at hs
    obtain ⟨sample, hsample, -⟩ := bind_eq_ok.1 hs
    exact ⟨first, second, third, more, sample, rfl, statistics_eq_ok.1 hsample⟩

theorem offends_of_stated {stated more : List (List Char)} (hl : stated ++ more = [first, second, third])
    (hmore : ∀ l ∈ more, '\n' ∉ l) (hs : ∃ sample, StatesSample first second third sample)
    (hbad : ∀ more first second third rest sample, stated ++ bad :: more = first :: second :: third :: rest →
      ¬StatesSample first second third sample) :
    Offends marker (before ++ heading :: (waiting ++ opening :: stated)) bad := by
  have hassoc (rest : List (List Char)) : before ++ heading :: (waiting ++ opening :: stated) ++ rest
      = before ++ heading :: (waiting ++ opening :: (stated ++ rest)) := by simp
  constructor
  · obtain ⟨sample, hs⟩ := hs
    obtain ⟨gs', hgs'⟩ := isSplit_succeeded hgs hh hw ho hs
    refine ⟨more, gs', hmore, ?_⟩
    rwa [hassoc, hl]
  · intro rest gs' hgs'
    rw [hassoc] at hgs'
    obtain ⟨first, second, third, more, sample, he, hs⟩ := exists_statesSample_of_isSplit hgs hh hw ho hgs'
    exact hbad _ _ _ _ _ _ he hs

/-- The first statistics line that cannot be read offends. -/
theorem offends_of_statistics (hs : statistics n first second third = .error (.malformed m reason)) :
    ∃ stated bad after, first :: second :: third :: rest = stated ++ bad :: after ∧
      m = n + stated.length ∧ Offends marker (before ++ heading :: (waiting ++ opening :: stated)) bad := by
  have hzero := List.forall_mem_cons.1 newline_not_mem_zero
  rcases statistics_eq_error.1 hs with hc | ⟨hc, hv | ⟨hv, ht⟩⟩
  · obtain ⟨rfl, -⟩ := counts_isOf hc
    refine ⟨[], first, second :: third :: rest, rfl, rfl, offends_of_stated hgs hh hw ho rfl
      newline_not_mem_zero ((exists_statesSample_iff 1 1 1).2
        ⟨counts_zeroCounts 1, volume_zeroVolume 1, times_zeroTimes 1⟩) ?_⟩
    rintro more first' second' third' rest' sample he hs
    obtain ⟨⟨c, hc'⟩, -, -⟩ := (exists_statesSample_iff m 1 1).1 ⟨sample, hs⟩
    obtain ⟨rfl, -⟩ := List.cons.inj he
    cases hc.symm.trans hc'
  · obtain ⟨rfl, -⟩ := volume_isOf hv
    refine ⟨[first], second, third :: rest, rfl, rfl, offends_of_stated hgs hh hw ho rfl hzero.2
      ((exists_statesSample_iff n 1 1).2 ⟨hc, volume_zeroVolume 1, times_zeroTimes 1⟩) ?_⟩
    rintro more first' second' third' rest' sample he hs
    obtain ⟨-, ⟨v, hv'⟩, -⟩ := (exists_statesSample_iff 1 (n + 1) 1).1 ⟨sample, hs⟩
    obtain ⟨-, he⟩ := List.cons.inj he
    obtain ⟨rfl, -⟩ := List.cons.inj he
    cases hv.symm.trans hv'
  · obtain ⟨rfl, -⟩ := times_isOf ht
    refine ⟨[first, second], third, rest, rfl, rfl, offends_of_stated hgs hh hw ho rfl
      (List.forall_mem_cons.1 hzero.2).2
      ((exists_statesSample_iff n (n + 1) 1).2 ⟨hc, hv, times_zeroTimes 1⟩) ?_⟩
    rintro more first' second' third' rest' sample he hs
    obtain ⟨-, -, ⟨t, ht'⟩⟩ := (exists_statesSample_iff 1 1 (n + 2)).1 ⟨sample, hs⟩
    obtain ⟨-, he⟩ := List.cons.inj he
    obtain ⟨-, he⟩ := List.cons.inj he
    obtain ⟨rfl, -⟩ := List.cons.inj he
    cases ht.symm.trans ht'

end

/-- Unless a log only ends too early, the line of its fault is the first that cannot be there. -/
theorem Breaks.exists_offends (h : Breaks marker done lines (.malformed n reason)) (hr : ¬reason.IsEnd) :
    ∃ good bad rest, lines = good ++ bad :: rest ∧ n = done + good.length + 1 ∧ Offends marker good bad := by
  cases h with
  | @outcome before rest gs line word n hgs hl hn =>
    refine ⟨before, line, rest, rfl, hn, ⟨⟨[], gs, by simp, by rwa [List.append_nil]⟩, fun more gs' hgs' => ?_⟩⟩
    have hbreaks : samplesFrom marker .outcome 0 (before ++ line :: more) = .error _ :=
      samplesFrom_eq_error.2 (.outcome hgs hl rfl)
    cases hbreaks.symm.trans (samplesFrom_of_isSplit hgs')
  | @attempt before rest gs heading m fault hgs hh hu hm =>
    cases hu with
    | noStatistics => exact absurd (.inr rfl) hr
    | cutShort => exact absurd (.inl rfl) hr
    | statistics hw ho hs hn =>
      obtain ⟨stated, bad, after, hl, hplace, hoffends⟩ := offends_of_statistics hgs hh hw ho hs
      refine ⟨_, bad, after, ?_, ?_, hoffends⟩
      · rw [hl]
        simp
      · simp
        omega

/-- What is wrong at a line stays wrong when more lines follow. -/
theorem Breaks.append (h : Breaks marker done lines (.malformed n reason)) (hr : ¬reason.IsEnd)
    (more : List (List Char)) : Breaks marker done (lines ++ more) (.malformed n reason) := by
  cases h with
  | outcome hgs hl hn =>
    rw [List.append_assoc]
    exact .outcome hgs hl hn
  | attempt hgs hh hu hm =>
    rw [List.append_assoc]
    refine .attempt hgs hh ?_ hm
    cases hu with
    | noStatistics => exact absurd (.inr rfl) hr
    | cutShort => exact absurd (.inl rfl) hr
    | statistics hw ho hs hn =>
      rw [List.append_eq, List.append_assoc]
      exact .statistics hw ho hs hn

/-- A log ends too early in an attempt that succeeded. -/
theorem Breaks.exists_unstated (h : Breaks marker done lines (.malformed n reason)) (hr : reason.IsEnd) :
    ∃ before gs heading rest, lines = before ++ heading :: rest ∧ IsSplit marker before gs ∧
      EndsWith marker heading "OK".toList ∧
      (reason = .noStatistics ∧ (∀ line ∈ rest, ¬"Statistics".toList <:+: line) ∧ n = done + lines.length + 1 ∨
        reason = .cutShort ∧ ∃ waiting opening after, rest = waiting ++ opening :: after ∧
          (∀ line ∈ waiting, ¬"Statistics".toList <:+: line) ∧ "Statistics".toList <:+: opening ∧
          after.length < 3 ∧ n = done + before.length + waiting.length + 3) := by
  cases h with
  | outcome => rcases hr with hr | hr <;> cases hr
  | @attempt before rest gs heading m fault hgs hh hu hm =>
    refine ⟨before, gs, heading, rest, rfl, hgs, hh, ?_⟩
    cases hu with
    | noStatistics hw hn => exact .inl ⟨rfl, hw, by simp; omega⟩
    | cutShort hw ho hshort hn => exact .inr ⟨rfl, _, _, _, rfl, hw, ho, hshort, by omega⟩
    | statistics hw ho hs => exact absurd hr (not_isEnd_of_statistics hs)

/-! ### Logs -/

variable {mark : String} {text : List Char}

theorem exists_read_eq_ok :
    (∃ r, read mark text = .ok r) ↔ ∃ gs, IsSplit mark.toList (Text.lines text) gs := by
  constructor
  · rintro ⟨r, hr⟩
    obtain ⟨samples, hs, -⟩ := map_eq_ok.1 hr
    obtain ⟨gs, hgs, -⟩ := reads_of_samplesFrom .outcome 0 _ hs
    exact ⟨gs, hgs⟩
  · rintro ⟨gs, hgs⟩
    exact ⟨_, map_eq_ok.2 ⟨_, samplesFrom_of_isSplit hgs, rfl⟩⟩

theorem read_eq_error : read mark text = .error fault ↔ Breaks mark.toList 0 (Text.lines text) fault :=
  map_eq_error.trans samplesFrom_eq_error

/-- A log is malformed at the first line that no log can have there, whatever follows, or where a log that
ends in a successful attempt should have gone on. -/
theorem malformed_spec (mark : String) (text : List Char) (n : Nat) (reason : LogReason)
    (h : read mark text = .error (.malformed n reason)) :
    (¬reason.IsEnd →
      (0 < n ∧ n ≤ (Text.lines text).length) ∧
      (∃ text' more r, Text.lines text' = (Text.lines text).take (n - 1) ++ more ∧ read mark text' = .ok r) ∧
      (∀ text' r, (Text.lines text').take n = (Text.lines text).take n → read mark text' ≠ .ok r) ∧
      ∀ text' more, Text.lines text' = Text.lines text ++ more →
        read mark text' = .error (.malformed n reason)) ∧
    (reason.IsEnd →
      ∃ before heading after, Text.lines text = before ++ heading :: after ∧
        EndsWith mark.toList heading "OK".toList ∧
        (∃ text' r, Text.lines text' = before ∧ read mark text' = .ok r) ∧
        (reason = .noStatistics ∧ (∀ line ∈ after, ¬"Statistics".toList <:+: line) ∧
            n = (Text.lines text).length + 1 ∨
          reason = .cutShort ∧ ∃ waiting opening rest, after = waiting ++ opening :: rest ∧
            (∀ line ∈ waiting, ¬"Statistics".toList <:+: line) ∧ "Statistics".toList <:+: opening ∧
            rest.length < 3 ∧ n = (before ++ heading :: waiting ++ [opening]).length + 1)) := by
  have hnewline : ∀ l ∈ Text.lines text, '\n' ∉ l := Text.newline_not_mem_lines
  have hbreaks : Breaks mark.toList 0 (Text.lines text) (.malformed n reason) := read_eq_error.1 h
  refine ⟨fun hr => ?_, fun hr => ?_⟩
  · obtain ⟨good, bad, rest, hl, hn, hoffends⟩ := hbreaks.exists_offends hr
    rw [Nat.zero_add] at hn
    have hgood : (Text.lines text).take (n - 1) = good := by simp [hl, hn]
    have hbad : (Text.lines text).take n = good ++ [bad] := by simp [hl, hn, List.take_append]
    refine ⟨⟨by omega, by simp [hl, hn]⟩, ?_, fun text' r htake hok => ?_, fun text' more hmore => ?_⟩
    · obtain ⟨more, gs, hmore, hgs⟩ := hoffends.viable
      rw [hl] at hnewline
      have hlines : Text.lines (Text.ofLines (good ++ more)) = good ++ more :=
        Text.lines_ofLines (List.forall_mem_append.2 ⟨(List.forall_mem_append.1 hnewline).1, hmore⟩)
      obtain ⟨r, hr⟩ := exists_read_eq_ok.2 ⟨gs, hlines.symm ▸ hgs⟩
      exact ⟨_, more, r, by rw [hlines, hgood], hr⟩
    · obtain ⟨gs, hgs⟩ := exists_read_eq_ok.1 ⟨r, hok⟩
      rw [← List.take_append_drop n (Text.lines text'), htake, hbad, List.append_assoc] at hgs
      exact hoffends.refused _ gs hgs
    · rw [read_eq_error, hmore]
      exact hbreaks.append hr more
  · obtain ⟨before, gs, heading, after, hl, hgs, hh, hcases⟩ := hbreaks.exists_unstated hr
    have hlines : Text.lines (Text.ofLines before) = before := by
      rw [hl] at hnewline
      exact Text.lines_ofLines (List.forall_mem_append.1 hnewline).1
    obtain ⟨r, hr⟩ := exists_read_eq_ok.2 ⟨gs, hlines.symm ▸ hgs⟩
    refine ⟨before, heading, after, hl, hh, ⟨_, r, hlines, hr⟩, ?_⟩
    rcases hcases with ⟨hreason, hw, rfl⟩ | ⟨hreason, waiting, opening, rest, hafter, hw, ho, hshort, rfl⟩
    · exact .inl ⟨hreason, hw, by simp⟩
    · refine .inr ⟨hreason, waiting, opening, rest, hafter, hw, ho, hshort, ?_⟩
      simp
      omega

/-- The volume line of a second attempt is at fault, whatever may follow. -/
theorem malformed_at_volume : let text := ("APP: pmpd Failed\nAPP: pmpd OK\nStatistics\n" ++
      "packets 100 retrans 5 loss 2%\nfrags 3 frames\ntime 120 (30)\n").toList
    read "APP: pmpd" text = .error (.malformed 5 (.tooFewValues 3 1)) ∧
      ∀ text' r, (Text.lines text').take 5 = (Text.lines text).take 5 → read "APP: pmpd" text' ≠ .ok r := by
  have h : read "APP: pmpd" ("APP: pmpd Failed\nAPP: pmpd OK\nStatistics\n" ++
      "packets 100 retrans 5 loss 2%\nfrags 3 frames\ntime 120 (30)\n").toList
        = .error (.malformed 5 (.tooFewValues 3 1)) := by
    decide +kernel
  exact ⟨h, ((malformed_spec _ _ _ _ h).1 (by simp [LogReason.IsEnd])).2.2.1⟩

end Log
end Campaign
