import Mathlib
import Campaign.Log.Statistics
import Campaign.Proofs.Except

/-!
# What statistics lines state

Three lines state a sample if the words at their places write its numbers (`StatesSample`), and that is
when they are read as that sample (`statistics_eq_ok`). Only the volume line has to be short and to have
numbers at all its odd places; the others may go on in any way.
-/

namespace Campaign.Log

/-- The word at a place of a line, counted from 0, writes a number once `clean` is done with it. -/
def Writes (clean : List Char → List Char) (line : List Char) (place : Nat) (v : Value) : Prop :=
  ∃ word, (Text.words line)[place]? = some word ∧ Value.ofNumeral? (clean word) = some v

structure StatesSample (first second third : List Char) (s : Sample) : Prop where
  packets : Writes id first 1 s.packets
  retransmissions : Writes id first 3 s.retransmissions
  lossPercent : Writes (Text.dropEndWhile (· == '%')) first 5 s.lossPercent
  fragments : Writes id second 1 s.fragments
  frames : Writes id second 3 s.frames
  bytes : Writes id second 5 s.bytes
  /-- The words at odd places are at most five, all of them numbers. -/
  volume : ∀ i word, (Text.words second)[2 * i + 1]? = some word →
    i < 5 ∧ (Value.ofNumeral? word).isSome
  time : Writes id third 1 s.time
  secondaryTime : Writes (Text.dropAround fun c => c == '(' || c == ')') third 2 s.secondaryTime

variable {line : Nat} {word s : List Char} {words values : List (List Char)} {v : Value}

theorem number_eq_ok : number line word = .ok v ↔ Value.ofNumeral? word = some v := by
  unfold number
  cases Value.ofNumeral? word <;> simp

theorem getElem?_everySecond (words : List (List Char)) (i : Nat) :
    (everySecond words)[i]? = words[2 * i + 1]? := by
  induction words using everySecond.induct generalizing i with
  | case1 label value rest ih =>
    cases i with
    | zero => rfl
    | succ i => rw [everySecond, List.getElem?_cons_succ, ih]; rfl
  | case2 words hshort =>
    have hw : words.length ≤ 1 := by
      match words, hshort with
      | [], _ => simp
      | [_], _ => simp
      | label :: value :: rest, h => exact absurd rfl (h label value rest)
    rw [everySecond.eq_2 words hshort, List.getElem?_nil, List.getElem?_eq_none (by omega)]

/-- A number at an odd place is one among every second word. -/
theorem writes_odd {clean : List Char → List Char} (i : Nat) : Writes clean s (2 * i + 1) v ↔
    ∃ word, (everySecond (Text.words s))[i]? = some word ∧ Value.ofNumeral? (clean word) = some v := by
  simp only [Writes, getElem?_everySecond]

theorem valuesOf_eq_ok {count : Nat} : valuesOf line count s = .ok values ↔
    count ≤ values.length ∧ everySecond (Text.words s) = values := by
  unfold valuesOf
  dsimp only
  split_ifs with h
  · refine iff_of_false (by simp) ?_
    rintro ⟨hc, rfl⟩; omega
  · refine ⟨fun he => ?_, fun he => by rw [he.2]⟩
    obtain rfl := Except.ok.inj he
    exact ⟨by omega, rfl⟩

theorem exists_three {α : Type} {as : List α} (h : 3 ≤ as.length) :
    ∃ x y z rest, as = x :: y :: z :: rest := by
  match as, h with
  | x :: y :: z :: rest, _ => exact ⟨x, y, z, rest, rfl⟩

theorem eq_three {α : Type} {as : List α} {x y z : α} (hx : as[0]? = some x) (hy : as[1]? = some y)
    (hz : as[2]? = some z) : ∃ rest, as = x :: y :: z :: rest := by
  match as, hx, hy, hz with
  | _ :: _ :: _ :: rest, rfl, rfl, rfl => exact ⟨rest, rfl⟩

theorem counts_eq_ok {a b c : Value} : counts line s = .ok (a, b, c) ↔
    Writes id s 1 a ∧ Writes id s 3 b ∧ Writes (Text.dropEndWhile (· == '%')) s 5 c := by
  rw [writes_odd 0, writes_odd 1, writes_odd 2, counts, bind_eq_ok]
  simp only [valuesOf_eq_ok]
  constructor
  · rintro ⟨values, ⟨hlong, hv⟩, h⟩
    obtain ⟨x, y, z, rest, rfl⟩ := exists_three hlong
    simp only [bind_eq_ok, number_eq_ok, pure, Except.pure, Except.ok.injEq, Prod.mk.injEq] at h
    obtain ⟨_, hx, _, hy, _, hz, rfl, rfl, rfl⟩ := h
    rw [hv]
    exact ⟨⟨x, rfl, hx⟩, ⟨y, rfl, hy⟩, ⟨z, rfl, hz⟩⟩
  · rintro ⟨⟨x, hx, ha⟩, ⟨y, hy, hb⟩, ⟨z, hz, hc⟩⟩
    obtain ⟨rest, hv⟩ := eq_three hx hy hz
    refine ⟨_, ⟨by simp, hv⟩, ?_⟩
    simp only [bind_eq_ok, number_eq_ok]
    exact ⟨a, ha, b, hb, c, hc, rfl⟩

theorem volumeNumbers_eq_ok {room : Nat} {numbers : List Value} :
    volumeNumbers line room words = .ok numbers ↔
      words.length ≤ room ∧ words.map Value.ofNumeral? = numbers.map some := by
  induction words generalizing room numbers with
  | nil =>
    simp only [volumeNumbers, Except.ok.injEq, List.length_nil, Nat.zero_le, true_and, List.map_nil]
    constructor
    · rintro rfl; rfl
    · intro h; exact (List.map_eq_nil_iff.1 h.symm).symm
  | cons word words ih =>
    cases hn : number line word with
    | error fault =>
      have hnone : Value.ofNumeral? word = none := by
        refine Option.eq_none_iff_forall_ne_some.2 fun v hv => ?_
        rw [number_eq_ok.2 hv] at hn
        cases hn
      refine iff_of_false (by simp [volumeNumbers, hn]) ?_
      rintro ⟨-, h⟩
      cases numbers <;> simp [hnone] at h
    | ok v =>
      have hv := number_eq_ok.1 hn
      cases room with
      | zero => simp [volumeNumbers, hn]
      | succ room =>
        unfold volumeNumbers
        rw [hn]
        simp only [map_eq_ok, ih]
        constructor
        · rintro ⟨numbers, ⟨hr, he⟩, rfl⟩
          exact ⟨Nat.succ_le_succ hr, by rw [List.map_cons, List.map_cons, hv, he]⟩
        · rintro ⟨hr, he⟩
          cases numbers with
          | nil => cases he
          | cons v' numbers =>
            rw [List.map_cons, List.map_cons, hv, List.cons.injEq, Option.some_inj] at he
            exact ⟨numbers, ⟨Nat.le_of_succ_le_succ hr, he.2⟩, by rw [he.1]⟩

theorem exists_numbers (h : ∀ word ∈ words, (Value.ofNumeral? word).isSome) :
    ∃ numbers : List Value, words.map Value.ofNumeral? = numbers.map some := by
  induction words with
  | nil => exact ⟨[], rfl⟩
  | cons word words ih =>
    obtain ⟨v, hv⟩ := Option.isSome_iff_exists.1 (h word List.mem_cons_self)
    obtain ⟨numbers, hn⟩ := ih fun w hw => h w (List.mem_cons_of_mem _ hw)
    exact ⟨v :: numbers, by rw [List.map_cons, List.map_cons, hv, hn]⟩

theorem numbers_of_three {x y z : List Char} {numbers : List Value}
    (h : (x :: y :: z :: words).map Value.ofNumeral? = numbers.map some) :
    ∃ a b c more, numbers = a :: b :: c :: more ∧
      Value.ofNumeral? x = some a ∧ Value.ofNumeral? y = some b ∧ Value.ofNumeral? z = some c := by
  have hlong : 3 ≤ numbers.length := by
    have := congrArg List.length h
    simp at this; omega
  obtain ⟨a, b, c, more, rfl⟩ := exists_three hlong
  simp only [List.map_cons, List.cons.injEq] at h
  exact ⟨a, b, c, more, rfl, h.1, h.2.1, h.2.2.1⟩

/-- The volume line is read in full, though only its first three numbers are kept. -/
theorem volume_eq_ok {a b c : Value} : volume line s = .ok (a, b, c) ↔
    (Writes id s 1 a ∧ Writes id s 3 b ∧ Writes id s 5 c) ∧
      ∀ i word, (Text.words s)[2 * i + 1]? = some word → i < 5 ∧ (Value.ofNumeral? word).isSome := by
  rw [writes_odd 0, writes_odd 1, writes_odd 2, volume, bind_eq_ok]
  simp only [valuesOf_eq_ok, ← getElem?_everySecond]
  constructor
  · rintro ⟨values, ⟨hlong, rfl⟩, h⟩
    obtain ⟨numbers, hn, h⟩ := bind_eq_ok.1 h
    obtain ⟨hroom, hn⟩ := volumeNumbers_eq_ok.1 hn
    generalize everySecond (Text.words s) = values at hlong hroom hn ⊢
    refine ⟨?_, fun i word hw => ?_⟩
    · obtain ⟨x, y, z, rest, rfl⟩ := exists_three hlong
      obtain ⟨a', b', c', more, rfl, hx, hy, hz⟩ := numbers_of_three hn
      simp only [pure, Except.pure, Except.ok.injEq, Prod.mk.injEq] at h
      obtain ⟨rfl, rfl, rfl⟩ := h
      exact ⟨⟨x, rfl, hx⟩, ⟨y, rfl, hy⟩, ⟨z, rfl, hz⟩⟩
    · obtain ⟨hi, -⟩ := List.getElem?_eq_some_iff.1 hw
      have hmem : Value.ofNumeral? word ∈ values.map Value.ofNumeral? :=
        List.mem_map_of_mem (List.mem_of_getElem? hw)
      rw [hn] at hmem
      obtain ⟨v, -, hv⟩ := List.mem_map.1 hmem
      exact ⟨by omega, hv ▸ rfl⟩
  · rintro ⟨⟨⟨x, hx, ha⟩, ⟨y, hy, hb⟩, ⟨z, hz, hc⟩⟩, hall⟩
    refine ⟨_, ⟨(List.getElem?_eq_some_iff.1 hz).1, rfl⟩, ?_⟩
    generalize everySecond (Text.words s) = values at hx hy hz hall ⊢
    obtain ⟨numbers, hn⟩ := exists_numbers fun word hw => by
      obtain ⟨i, hi⟩ := List.getElem?_of_mem hw
      exact (hall i word hi).2
    have hroom : values.length ≤ 5 := by
      by_contra hlt
      exact absurd (hall 5 values[5] (List.getElem?_eq_getElem _)).1 (by omega)
    refine bind_eq_ok.2 ⟨numbers, volumeNumbers_eq_ok.2 ⟨hroom, hn⟩, ?_⟩
    obtain ⟨rest, rfl⟩ := eq_three hx hy hz
    obtain ⟨a', b', c', more, rfl, hx', hy', hz'⟩ := numbers_of_three hn
    obtain rfl : a' = a := Option.some_inj.1 (hx'.symm.trans ha)
    obtain rfl : b' = b := Option.some_inj.1 (hy'.symm.trans hb)
    obtain rfl : c' = c := Option.some_inj.1 (hz'.symm.trans hc)
    rfl

theorem times_eq_ok {a b : Value} : times line s = .ok (a, b) ↔
    Writes id s 1 a ∧ Writes (Text.dropAround fun c => c == '(' || c == ')') s 2 b := by
  unfold times Writes
  generalize Text.words s = words
  match words with
  | [] | [_] | [_, _] => simp [throw, throwThe, MonadExceptOf.throw]
  | _ :: first :: second :: rest =>
    simp only [bind_eq_ok, number_eq_ok, pure, Except.pure, Except.ok.injEq, Prod.mk.injEq,
      List.getElem?_cons_succ, List.getElem?_cons_zero, Option.some_inj, id]
    constructor
    · rintro ⟨_, ha, _, hb, rfl, rfl⟩; exact ⟨⟨_, rfl, ha⟩, ⟨_, rfl, hb⟩⟩
    · rintro ⟨⟨_, rfl, ha⟩, ⟨_, rfl, hb⟩⟩; exact ⟨_, ha, _, hb, rfl, rfl⟩

/-- Three lines are read as a sample exactly if they state it, wherever they stand. -/
theorem statistics_eq_ok {first second third : List Char} {sample : Sample} :
    statistics line first second third = .ok sample ↔ StatesSample first second third sample := by
  unfold statistics
  simp only [bind_eq_ok, Prod.exists, counts_eq_ok, volume_eq_ok, times_eq_ok, pure, Except.pure,
    Except.ok.injEq]
  constructor
  · rintro ⟨_, _, _, ⟨h₁, h₂, h₃⟩, _, _, _, ⟨⟨h₄, h₅, h₆⟩, hv⟩, _, _, ⟨h₇, h₈⟩, rfl⟩
    exact ⟨h₁, h₂, h₃, h₄, h₅, h₆, hv, h₇, h₈⟩
  · rintro ⟨h₁, h₂, h₃, h₄, h₅, h₆, hv, h₇, h₈⟩
    exact ⟨_, _, _, ⟨h₁, h₂, h₃⟩, _, _, _, ⟨⟨h₄, h₅, h₆⟩, hv⟩, _, _, ⟨h₇, h₈⟩, rfl⟩

end Campaign.Log
