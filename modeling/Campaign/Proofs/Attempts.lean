import Mathlib
import Campaign.Proofs.Grammar

/-!
# Attempts and the lines that tell of them

A reader takes each line of a log for something: for the outcome of an attempt, for what opens the
statistics of the last one, or for one of the three statistics lines. A log that is read has a row for each
line that is taken for an outcome and says more than the marker, and for no other line
(`rows_length_spec`). The marker does not count on a line that is passed in the wait for statistics.
-/

namespace Campaign

namespace Text

theorem not_isBlank_of_trim {s t : List Char} {c : Char} (h : trim s = t ++ [c]) : ¬isBlank c := by
  have hreverse : ((s.dropWhile isBlank).reverse.dropWhile isBlank).head? = some c := by
    have h : ((s.dropWhile isBlank).reverse.dropWhile isBlank).reverse = t ++ [c] := h
    rw [← List.getLast?_reverse, h, List.getLast?_concat]
  have hdrop := List.head?_dropWhile_not isBlank (s.dropWhile isBlank).reverse
  rw [hreverse] at hdrop
  simpa using hdrop

end Text

namespace Log

/-- What a reader takes a line for. -/
inductive Role where
  | outcome
  | opening
  | first
  | second
  | third
deriving DecidableEq, Repr

/-- What the line after `line` is taken for. -/
def Role.next (marker line : List Char) : Role → Role
  | outcome => if Heading.ofLine marker line = .succeeded then opening else outcome
  | opening => if opensStatistics line then first else opening
  | first => second
  | second => third
  | third => outcome

/-- Lines with what they are taken for, when the first is taken for `role`. -/
def roles (marker : List Char) : Role → List (List Char) → List (Role × List Char)
  | _, [] => []
  | role, line :: lines => (role, line) :: roles marker (role.next marker line) lines

/-- The line starts, after blanks, with the marker. -/
def IsMarked (marker line : List Char) : Prop :=
  marker <+: Text.trim line

instance (marker line : List Char) : Decidable (IsMarked marker line) :=
  inferInstanceAs (Decidable (marker <+: Text.trim line))

/-- The line is taken for an outcome, and there is more on it than the marker. -/
def TellsAttempt (marker : List Char) (met : Role × List Char) : Prop :=
  met.1 = .outcome ∧ IsMarked marker met.2 ∧ Text.trim met.2 ≠ marker

instance (marker : List Char) (met : Role × List Char) : Decidable (TellsAttempt marker met) :=
  inferInstanceAs (Decidable (_ ∧ _ ∧ _))

/-- The lines of a segment with what they are taken for. -/
def Segment.roles : Segment → List (Role × List Char)
  | noise line => [(.outcome, line)]
  | failed line => [(.outcome, line)]
  | succeeded heading waiting opening first second third _ =>
    (.outcome, heading) :: waiting.map (Role.opening, ·) ++
      [(.opening, opening), (.first, first), (.second, second), (.third, third)]

variable {marker line word : List Char} {lines waiting more : List (List Char)} {gs : List Segment}
  {g : Segment}

/-! ### What lines are taken for -/

theorem isNoise_iff : IsNoise marker line ↔ (IsMarked marker line → Text.trim line = marker) := by
  constructor
  · rintro h ⟨rest, hr⟩
    rcases List.eq_nil_or_concat' rest with rfl | ⟨rest, c, rfl⟩
    · rw [← hr, List.append_nil]
    · rw [← List.append_assoc] at hr
      have hblank := h _ (hr.symm.trans (List.append_assoc _ _ _)) c (by simp)
      exact absurd hblank (Text.not_isBlank_of_trim hr.symm)
  · intro h rest hr
    have hrest : marker ++ rest = marker ++ [] := by rw [← hr, h ⟨rest, hr.symm⟩, List.append_nil]
    simp [List.append_cancel_left hrest]

theorem EndsWith.not_isNoise (h : EndsWith marker line word) : ¬IsNoise marker line := by
  intro hn
  cases (Heading.word?_eq_some.2 h).symm.trans (Heading.word?_eq_none.2 hn)

theorem tellsAttempt_outcome : TellsAttempt marker (.outcome, line) ↔ ¬IsNoise marker line := by
  simp [TellsAttempt, isNoise_iff]

theorem roles_waiting (hw : ∀ line ∈ waiting, ¬"Statistics".toList <:+: line) :
    roles marker .opening (waiting ++ lines)
      = waiting.map (Role.opening, ·) ++ roles marker .opening lines := by
  induction waiting with
  | nil => rfl
  | cons line waiting ih =>
    obtain ⟨hl, hw⟩ := List.forall_mem_cons.1 hw
    rw [List.cons_append, roles, Role.next, if_neg (mt opensStatistics_iff.1 hl), ih hw]; rfl

theorem roles_segment (hg : g.IsWellFormed marker) :
    roles marker .outcome (g.lines ++ more) = g.roles ++ roles marker .outcome more := by
  cases g with
  | noise line =>
    show roles marker .outcome (line :: more) = _
    rw [roles, Role.next, Heading.ofLine_eq_noise.2 hg, if_neg Heading.noConfusion]; rfl
  | failed line =>
    show roles marker .outcome (line :: more) = _
    rw [roles, Role.next, Heading.ofLine_eq_failed.2 hg, if_neg Heading.noConfusion]; rfl
  | succeeded heading waiting opening first second third sample =>
    obtain ⟨hh, hw, ho, -⟩ := hg
    have hl : (Segment.succeeded heading waiting opening first second third sample).lines ++ more
        = heading :: (waiting ++ opening :: first :: second :: third :: more) := by simp [Segment.lines]
    rw [hl, roles, Role.next, if_pos (Heading.ofLine_eq_succeeded.2 hh), roles_waiting hw, roles, Role.next,
      if_pos (opensStatistics_iff.2 ho)]
    simp [Segment.roles, roles, Role.next]

theorem roles_of_isSplit (h : IsSplit marker lines gs) :
    roles marker .outcome lines = gs.flatMap Segment.roles := by
  induction gs generalizing lines with
  | nil => rw [← h.lines]; rfl
  | cons g gs ih =>
    obtain ⟨hg, rest, hgs, rfl⟩ := isSplit_cons.1 h
    rw [roles_segment hg, ih hgs, List.flatMap_cons]

/-! ### Counting attempts -/

theorem countP_segment (hg : g.IsWellFormed marker) :
    g.roles.countP (TellsAttempt marker ·) = g.sample?.toList.length := by
  cases g with
  | noise line =>
    have hl : ¬TellsAttempt marker (.outcome, line) := mt tellsAttempt_outcome.1 (not_not.2 hg)
    simp [Segment.roles, Segment.sample?, hl]
  | failed line =>
    have hl : TellsAttempt marker (.outcome, line) := tellsAttempt_outcome.2 (EndsWith.not_isNoise hg)
    simp [Segment.roles, Segment.sample?, hl]
  | succeeded heading waiting opening first second third sample =>
    have hh : TellsAttempt marker (.outcome, heading) := tellsAttempt_outcome.2 hg.1.not_isNoise
    have hrest : ∀ met ∈ waiting.map (Role.opening, ·) ++
        [(.opening, opening), (.first, first), (.second, second), (.third, third)],
          ¬TellsAttempt marker met := by
      rintro ⟨role, line⟩ hmem ⟨rfl, -⟩
      simp at hmem
    rw [Segment.roles, List.cons_append, List.countP_cons_of_pos (by simpa using hh),
      List.countP_eq_zero.2 (by simpa using hrest)]
    rfl

theorem countP_of_isSplit (h : IsSplit marker lines gs) :
    (roles marker .outcome lines).countP (TellsAttempt marker ·) = (gs.filterMap Segment.sample?).length := by
  rw [roles_of_isSplit h]
  have hgs := h.wellFormed
  clear h
  induction gs with
  | nil => rfl
  | cons g gs ih =>
    obtain ⟨hg, hgs⟩ := List.forall_mem_cons.1 hgs
    rw [List.flatMap_cons, List.countP_append, countP_segment hg, ih hgs]
    cases hs : g.sample? <;> simp [hs, Nat.add_comm]

/-- A line with the marker that is not a statistics line tells of an attempt, or it has nothing but the
marker, or it is passed in the wait for statistics. -/
theorem countP_marked (met : List (Role × List Char)) :
    met.countP (fun p => (p.1 = .outcome ∨ p.1 = .opening) ∧ IsMarked marker p.2)
      = met.countP (TellsAttempt marker ·) + met.countP (fun p => p.1 = .outcome ∧ Text.trim p.2 = marker) +
        met.countP fun p => p.1 = .opening ∧ IsMarked marker p.2 := by
  have hbare (line : List Char) (h : Text.trim line = marker) : IsMarked marker line := h ▸ List.prefix_rfl
  induction met with
  | nil => rfl
  | cons p met ih =>
    obtain ⟨role, line⟩ := p
    simp only [List.countP_cons, ih]
    by_cases ht : Text.trim line = marker
    · cases role <;> simp [TellsAttempt, ht, hbare line ht] <;> omega
    · by_cases hm : IsMarked marker line
      · cases role <;> simp [TellsAttempt, ht, hm] <;> omega
      · cases role <;> simp [TellsAttempt, ht, hm]

/-- A log that is read has a row for each line that is taken for an outcome and has the marker and more. So
of the lines with the marker outside the statistics, those with the bare marker and those that are passed in
the wait for statistics give none. -/
theorem rows_length_spec (mark : String) (text : List Char) (r : Option Matrix) (h : read mark text = .ok r) :
    let met := roles mark.toList .outcome (Text.lines text)
    (Matrix.rowsOf r).length = met.countP (fun p =>
        p.1 = .outcome ∧ IsMarked mark.toList p.2 ∧ Text.trim p.2 ≠ mark.toList) ∧
      met.countP (fun p => (p.1 = .outcome ∨ p.1 = .opening) ∧ IsMarked mark.toList p.2)
        = (Matrix.rowsOf r).length + met.countP (fun p => p.1 = .outcome ∧ Text.trim p.2 = mark.toList) +
          met.countP fun p => p.1 = .opening ∧ IsMarked mark.toList p.2 := by
  obtain ⟨samples, hs, rfl⟩ := map_eq_ok.1 h
  obtain ⟨gs, hgs, rfl⟩ := reads_of_samplesFrom .outcome 0 _ hs
  have hrows : (roles mark.toList .outcome (Text.lines text)).countP (TellsAttempt mark.toList ·)
      = (Matrix.rowsOf (Matrix.ofRows? (gs.filterMap Segment.sample?))).length := by
    rw [countP_of_isSplit hgs, Matrix.rowsOf_ofRows?]
  exact ⟨hrows.symm, by rw [countP_marked, hrows]⟩

/-- An attempt that failed and a bare marker while an attempt that succeeded waits for its statistics. -/
theorem rows_length_passed : let text := ("APP: pmpd\nAPP: pmpd OK\nAPP: pmpd Failed\nStatistics\n" ++
      "packets 100 retrans 5 loss 2%\nfrags 3 frames 10 bytes 1500\ntime 120 (30)\n").toList
    ∃ r, read "APP: pmpd" text = .ok r ∧ (Matrix.rowsOf r).length = 1 ∧
      (roles "APP: pmpd".toList .outcome (Text.lines text)).countP (fun p =>
        p.1 = .outcome ∧ IsMarked "APP: pmpd".toList p.2 ∧ Text.trim p.2 ≠ "APP: pmpd".toList) = 1 := by
  intro text
  have hread : (read "APP: pmpd" text).map (fun r => (Matrix.rowsOf r).length) = .ok 1 := by decide +kernel
  obtain ⟨r, hr, hlength⟩ := map_eq_ok.1 hread
  exact ⟨r, hr, hlength, (rows_length_spec _ _ r hr).1.symm.trans hlength⟩

/-- An attempt is lost when its outcome comes before the statistics of the one before. -/
theorem not_forall_rows_length : ¬∀ (mark : String) (text : List Char) (r : Option Matrix),
    read mark text = .ok r → (Matrix.rowsOf r).length = (roles mark.toList .outcome (Text.lines text)).countP
      fun p => (p.1 = .outcome ∨ p.1 = .opening) ∧ IsMarked mark.toList p.2 := by
  intro h
  have hread : (read "APP: pmpd" ("APP: pmpd OK\nAPP: pmpd Failed\nStatistics\n" ++
      "packets 100 retrans 5 loss 2%\nfrags 3 frames 10 bytes 1500\ntime 120 (30)\n").toList).map
        (fun r => (Matrix.rowsOf r).length) = .ok 1 := by
    decide +kernel
  obtain ⟨r, hr, hlength⟩ := map_eq_ok.1 hread
  have hmarked := (h _ _ r hr).symm.trans hlength
  revert hmarked
  decide +kernel

end Log
end Campaign
