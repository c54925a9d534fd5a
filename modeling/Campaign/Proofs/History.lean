import Mathlib
import Campaign.Proofs.Matrix
import Campaign.Proofs.Refinement

/-!
# Histories of trials

What is stored of a trial follows from the writes to it alone: its rows start with those of the last write
that replaces, or of the first if none does, and those of all later merges follow (`get_after_eq`). The
first write is the only one that inserts.
-/

namespace Campaign

/-- A record that is written under a policy. -/
structure Write where
  policy : Policy
  record : Record

namespace Write
variable {w : Write} {ws : List Write}

/-- The rows that are written; none for a trial without samples. -/
def rows (w : Write) : List Sample :=
  w.record.samples.elim [] Matrix.rows

/-- Where the rows of a trial start among the writes to it, counted from 0: at the last that replaces, or
at the first if none does. -/
def start (ws : List Write) : Nat :=
  (ws.findIdxs fun w => w.policy = .replace).getLast?.getD 0

/-- The rows that a trial is left with after the writes to it. -/
def settled (ws : List Write) : List Sample :=
  ws[start ws]?.elim [] rows ++ ((ws.drop (start ws + 1)).filter fun w => w.policy = .merge).flatMap rows

/-- The samples that a write leaves in a trial, if those before it are `old`. -/
def onto (w : Write) : (old : Option (Option Matrix)) → Option Matrix
  | none => w.record.samples
  | some old =>
    match w.policy with
    | .ignore => old
    | .replace => w.record.samples
    | .merge => Matrix.merge old w.record.samples

end Write

/-- The records that a request writes, in order. -/
def Request.writes : Request → List Write
  | .insert policy r => [⟨policy, r⟩]
  | .insertMany policy rs => rs.map (Write.mk policy)
  | .get _ | .query _ | .catalogue | .failedRecords | .count | .reopen => []

/-- The writes to a trial in requests that come one after another. -/
def Request.writesTo (k : Key) (qs : List Request) : List Write :=
  (qs.flatMap writes).filter fun w => w.record.key = k

namespace Store

/-- What came of each record that a request writes, with its key. For a batch these are the outcomes of
its records inserted one after another, which its tally counts. -/
def reported (s : Store) : Request → List (Key × Outcome)
  | .insert policy r =>
    match s.insert policy r with
    | (.ok outcome, _) => [(r.key, outcome)]
    | (.error _, _) => []
  | .insertMany policy rs =>
    match s.insertEach policy rs with
    | (.ok outcomes, _) => (rs.map Record.key).zip outcomes
    | (.error _, _) => []
  | .get _ | .query _ | .catalogue | .failedRecords | .count | .reopen => []

/-- What came of the records that requests write one after another. -/
def reports : Store → List Request → List (Key × Outcome)
  | _, [] => []
  | s, q :: qs => s.reported q ++ reports (s.answer q).2 qs

/-- The store after requests that come one after another. -/
def after : Store → List Request → Store
  | s, [] => s
  | s, q :: qs => after (s.answer q).2 qs

/-- The tally of a batch counts what is reported of its records. -/
theorem ofOutcomes_reported {s s' : Store} {policy : Policy} {rs : List Record} {tally : Tally}
    (h : s.insertMany policy rs = (.ok tally, s')) :
    .ofOutcomes ((s.reported (.insertMany policy rs)).map Prod.snd) = tally := by
  unfold insertMany at h
  cases hw : s.writeAll policy rs with
  | error fault => rw [hw] at h; cases h
  | ok written =>
    obtain ⟨outcomes, s''⟩ := written
    rw [hw] at h
    simp only [Except.map, commit, Prod.mk.injEq, Except.ok.injEq] at h
    rw [reported, insertEach_eq_ok.2 hw]
    dsimp only
    rw [List.map_snd_zip (by rw [List.length_map, length_writeAll hw]), h.1]

end Store

/-! ### The rows of a trial, write by write -/

namespace Write
variable {w : Write} {ws : List Write}

theorem start_append (ws : List Write) (w : Write) :
    start (ws ++ [w]) = if w.policy = .replace then ws.length else start ws := by
  unfold start
  rw [List.findIdxs_append, List.findIdxs_cons]
  split_ifs <;> simp_all

theorem start_lt (h : ws ≠ []) : start ws < ws.length := by
  induction ws using List.reverseRecOn with
  | nil => exact absurd rfl h
  | append_singleton ws w ih =>
    rw [start_append, List.length_append, List.length_singleton]
    split_ifs
    · omega
    · by_cases hws : ws = []
      · subst hws; exact Nat.zero_lt_one
      · have := ih hws; omega

/-- One more write to a trial: its rows are put in place of the others or behind them, or they are left
out. -/
theorem settled_append (h : ws ≠ []) (w : Write) : settled (ws ++ [w]) =
    match w.policy with
    | .ignore => settled ws
    | .replace => w.rows
    | .merge => settled ws ++ w.rows := by
  have hlt := start_lt h
  -- Unless it replaces, the write comes behind the start, and its rows count only if it merges.
  have hkept (hp : w.policy ≠ .replace) : settled (ws ++ [w]) = ws[start ws]?.elim [] rows ++
      ((ws.drop (start ws + 1)).filter (fun w => w.policy = .merge)).flatMap rows ++
      ([w].filter fun w => w.policy = .merge).flatMap rows := by
    rw [settled, start_append, if_neg hp, List.getElem?_append_left hlt, List.drop_append_of_le_length hlt,
      List.filter_append, List.flatMap_append, List.append_assoc]
  cases hp : w.policy with
  | ignore => rw [hkept (by simp [hp])]; simp [hp, settled]
  | replace => simp [settled, start_append, hp]
  | merge => rw [hkept (by simp [hp])]; simp [hp, settled]

theorem ofRows?_rows (w : Write) : Matrix.ofRows? w.rows = w.record.samples :=
  Matrix.ofRows?_eq_iff.2 rfl

/-- The samples after a write are those of the settled rows, if they were so before it. -/
theorem onto_settled (h : ws ≠ []) (w : Write) :
    w.onto (some (Matrix.ofRows? (settled ws))) = Matrix.ofRows? (settled (ws ++ [w])) := by
  rw [settled_append h]
  cases hp : w.policy with
  | ignore => simp only [onto, hp]
  | replace => simp only [onto, hp, ofRows?_rows]
  | merge => simp only [onto, hp, Matrix.ofRows?_append, ofRows?_rows]

theorem settled_singleton (w : Write) : settled [w] = w.rows := by
  have hstart : start [w] = 0 := by
    have := start_lt (List.cons_ne_nil w [])
    simpa using this
  simp [settled, hstart]

/-- Writes to a trial, the first of them to a new one, leave the settled rows. -/
theorem foldl_onto (h : ws ≠ []) :
    ws.foldl (fun old w => some (w.onto old)) none = some (Matrix.ofRows? (settled ws)) := by
  induction ws using List.reverseRecOn with
  | nil => exact absurd rfl h
  | append_singleton ws w ih =>
    rw [List.foldl_append]
    by_cases hws : ws = []
    · subst hws
      rw [List.nil_append, settled_singleton, ofRows?_rows]; rfl
    · rw [ih hws, ← onto_settled hws]; rfl

end Write

/-! ### Archives -/

namespace Archive
variable {m : Archive} {k : Key} {w : Write} {ws : List Write}

/-- The archive after a write. -/
def put (m : Archive) (w : Write) : Archive :=
  (m.write w.policy w.record).2

/-- What came of writes one after another. -/
def reports : Archive → List Write → List (Key × Outcome)
  | _, [] => []
  | m, w :: ws => (w.record.key, (m.write w.policy w.record).1) :: reports (m.put w) ws

theorem reports_append (m : Archive) (ws ws' : List Write) :
    m.reports (ws ++ ws') = m.reports ws ++ (ws.foldl put m).reports ws' := by
  induction ws generalizing m with
  | nil => rfl
  | cons w ws ih => simp only [List.cons_append, reports, ih, List.foldl_cons]

/-- One write: the trial written changes, all others stay, and only a new trial is inserted. -/
theorem lookup_put (m : Archive) (w : Write) (k : Key) : (m.put w).lookup k =
    if w.record.key = k then some (w.onto (m.lookup k)) else m.lookup k := by
  obtain ⟨policy, r⟩ := w
  unfold put write Write.onto
  split_ifs with hk
  · subst hk
    cases hl : m.lookup r.key with
    | none => simp
    | some old => cases policy <;> simp [hl]
  · cases m.lookup r.key with
    | none => simp [Finmap.lookup_insert_of_ne _ (Ne.symm hk)]
    | some old => cases policy <;> simp [Finmap.lookup_insert_of_ne _ (Ne.symm hk)]

theorem write_eq_inserted (policy : Policy) (r : Record) :
    (m.write policy r).1 = .inserted ↔ m.lookup r.key = none := by
  unfold write
  cases m.lookup r.key with
  | none => simp
  | some old => cases policy <;> simp

/-- After writes, a trial is what the writes to it make of it. -/
theorem lookup_foldl_put (m : Archive) (ws : List Write) (k : Key) : (ws.foldl put m).lookup k =
    (ws.filter fun w => w.record.key = k).foldl (fun old w => some (w.onto old)) (m.lookup k) := by
  induction ws generalizing m with
  | nil => rfl
  | cons w ws ih =>
    rw [List.foldl_cons, ih, lookup_put]
    by_cases hk : w.record.key = k
    · simp [hk]
    · simp [hk]

/-- A trial is inserted by the first write to it, if it is new, and never again. -/
theorem count_reports (m : Archive) (ws : List Write) (k : Key) : (m.reports ws).count (k, .inserted) =
    if m.lookup k = none ∧ ∃ w ∈ ws, w.record.key = k then 1 else 0 := by
  induction ws generalizing m with
  | nil => simp [reports]
  | cons w ws ih =>
    rw [reports, List.count_cons, ih, lookup_put]
    by_cases hk : w.record.key = k
    · subst hk
      by_cases hl : m.lookup w.record.key = none
      · simp [hl, (write_eq_inserted w.policy w.record).2 hl]
      · simp [hl, mt (write_eq_inserted w.policy w.record).1 hl]
    · simp [hk]

theorem foldl_put_writeAll (m : Archive) (policy : Policy) (rs : List Record) :
    (rs.map (Write.mk policy)).foldl put m = (m.writeAll policy rs).2 := by
  induction rs generalizing m with
  | nil => rfl
  | cons r rs ih => exact ih _

theorem reports_writeAll (m : Archive) (policy : Policy) (rs : List Record) :
    m.reports (rs.map (Write.mk policy)) = (rs.map Record.key).zip (m.writeAll policy rs).1 := by
  induction rs generalizing m with
  | nil => rfl
  | cons r rs ih => exact congrArg (List.cons _) (ih _)

theorem foldl_put_writes (m : Archive) (q : Request) : q.writes.foldl put m = (m.answer q).2 := by
  cases q with
  | insertMany policy rs => exact foldl_put_writeAll m policy rs
  | _ => rfl

end Archive

/-! ### Stores -/

namespace Store.Represents
variable {s : Store} {m : Archive}

theorem reported (h : s.Represents m) (hc : s.codec.Faithful) (hm : m.IsSmall) (q : Request)
    (hq : (m.answer q).2.IsSmall) : s.reported q = m.reports q.writes := by
  cases q with
  | insert policy r =>
    obtain ⟨s', hw, -, -⟩ := h.write hc policy r fun _ => hm
    rw [Store.reported, insert_eq_ok.2 hw]; rfl
  | insertMany policy rs =>
    obtain ⟨s', hw, -, -⟩ := h.writeAll hc policy rs fun _ => hq
    rw [Store.reported, insertEach_eq_ok.2 hw]
    exact (Archive.reports_writeAll m policy rs).symm
  | _ => rfl

/-- Requests leave a store that represents what their writes leave in an archive, and report what came of
these. -/
theorem after (h : s.Represents m) (hc : s.codec.Faithful) {qs : List Request}
    (hm : ∀ m' ∈ m.trace qs, m'.IsSmall) :
    (s.after qs).Represents ((qs.flatMap Request.writes).foldl Archive.put m) ∧
      (s.after qs).codec = s.codec ∧ ((qs.flatMap Request.writes).foldl Archive.put m).IsSmall ∧
      s.reports qs = m.reports (qs.flatMap Request.writes) := by
  induction qs generalizing s m with
  | nil => exact ⟨h, rfl, hm m Archive.mem_trace_self, rfl⟩
  | cons q qs ih =>
    have hrest : ∀ m' ∈ (m.answer q).2.trace qs, m'.IsSmall := fun m' hm' =>
      hm m' (List.mem_cons_of_mem _ hm')
    have hfirst : m.IsSmall := hm m List.mem_cons_self
    obtain ⟨s', hs', h', hc'⟩ := h.answer hc hfirst q (hrest _ Archive.mem_trace_self)
    obtain ⟨hafter, hcodec, hsmall, hreports⟩ := ih h' (hc' ▸ hc) hrest
    rw [List.flatMap_cons, List.foldl_append, Archive.foldl_put_writes, Archive.reports_append,
      Archive.foldl_put_writes, Store.after, Store.reports, hs']
    refine ⟨hafter, hcodec.trans hc', hsmall, ?_⟩
    rw [h.reported hc hfirst q (hrest _ Archive.mem_trace_self), hreports]

end Store.Represents

namespace Store

/-- What a new store has of a trial after any requests: the rows of the last write that replaces, or of
the first write if none does, and those of the merges after it. The first write to a trial is the only one
reported to insert it, and what is reported of a batch is what its tally counts. No trial may get more rows than
four bytes can count on the way. -/
theorem get_after_eq (c : Codec) (hc : c.Faithful) (qs : List Request)
    (hm : ∀ m ∈ Archive.trace ∅ qs, m.IsSmall) (k : Key) (hk : Request.writesTo k qs ≠ []) :
    ((inMemory c).after qs).get k
      = .ok (some ⟨k, Matrix.ofRows? (Write.settled (Request.writesTo k qs))⟩) ∧
    ((inMemory c).reports qs).count (k, .inserted) = 1 ∧
    ∀ (s s' : Store) policy rs tally, s.insertMany policy rs = (.ok tally, s') →
      .ofOutcomes ((s.reported (.insertMany policy rs)).map Prod.snd) = tally := by
  obtain ⟨hafter, hcodec, hsmall, hreports⟩ := (represents_inMemory c).after hc hm
  have hlookup : ((qs.flatMap Request.writes).foldl Archive.put ∅).lookup k
      = some (Matrix.ofRows? (Write.settled (Request.writesTo k qs))) := by
    rw [Archive.lookup_foldl_put, Finmap.lookup_empty]
    exact Write.foldl_onto hk
  refine ⟨?_, ?_, fun s s' policy rs tally => ofOutcomes_reported⟩
  · rw [hafter.get (hcodec ▸ hc) hsmall, hlookup]; rfl
  · have hwritten : ∃ w ∈ qs.flatMap Request.writes, w.record.key = k := by
      obtain ⟨w, hw⟩ := List.exists_mem_of_ne_nil _ hk
      exact ⟨w, (List.mem_filter.1 hw).1, by simpa using (List.mem_filter.1 hw).2⟩
    rw [hreports, Archive.count_reports, if_pos ⟨Finmap.lookup_empty k, hwritten⟩]

/-- A trial that a replacement empties and two merges fill again, with another trial beside it. -/
theorem get_after_replaced :
    let one : Matrix := ⟨[.failed], by simp⟩
    let k : Key := ⟨1, 50, 256, 1024⟩
    let l : Key := ⟨2, 50, 256, 1024⟩
    let qs : List Request := [.insert .merge ⟨k, some one⟩, .insertMany .replace [⟨k, none⟩, ⟨l, some one⟩],
      .insert .ignore ⟨k, some one⟩, .insertMany .merge [⟨k, some one⟩, ⟨k, none⟩, ⟨k, some one⟩]]
    ((inMemory .blob).after qs).get k = .ok (some ⟨k, some (one ++ one)⟩) ∧
      ((inMemory .blob).reports qs).count (k, .inserted) = 1 := by
  intro one k l qs
  let m₁ : Archive := Finmap.insert k (some one) ∅
  let m₂ : Archive := Finmap.insert l (some one) (Finmap.insert k none m₁)
  let m₃ : Archive := Finmap.insert k (some (one ++ one))
    (Finmap.insert k (some one) (Finmap.insert k (some one) m₂))
  have hone : ∀ matrix ∈ some one, matrix.rowCount < 2 ^ 32 := by rintro _ ⟨⟩; decide
  have h₁ : m₁.IsSmall := Archive.isSmall_empty.insert hone
  have h₂ : m₂.IsSmall := (h₁.insert (by simp)).insert hone
  have h₃ : m₃.IsSmall := ((h₂.insert hone).insert hone).insert (by rintro _ ⟨⟩; decide)
  have htrace : Archive.trace ∅ qs = [∅, m₁, m₂, m₂, m₃] := rfl
  have hrows : Matrix.ofRows? (Write.settled (Request.writesTo k qs)) = some (one ++ one) := by rfl
  have hsmall : ∀ m ∈ Archive.trace ∅ qs, m.IsSmall := by
    rw [htrace]
    simp [Archive.isSmall_empty, h₁, h₂, h₃]
  obtain ⟨hget, hinserted, -⟩ := get_after_eq .blob Codec.faithful_blob qs hsmall k (by decide)
  exact ⟨hrows ▸ hget, hinserted⟩

end Store
end Campaign
