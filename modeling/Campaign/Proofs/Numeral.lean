import Mathlib
import Campaign.Export.Number
import Campaign.Proofs.Shortest
import Campaign.Value.Numeral

/-!
# Exported numbers read back

The number that JSON has for a finite value is a numeral that a log may have as well, and read as one it gives
the value, bit for bit (`ofNumeral?_value`).
-/

namespace Campaign

namespace Text

/-- The text starts with no character of a kind, so a run of such characters in front of it ends there. -/
def Ends (p : Char → Bool) (s : List Char) : Prop :=
  ∀ c ∈ s.head?, p c = false

section Ends
variable {p : Char → Bool} {c : Char} {s rest : List Char}

theorem ends_cons (h : p c = false) (s : List Char) : Ends p (c :: s) := by
  rintro _ ⟨⟩
  exact h

theorem takeWhile_of_ends (hs : ∀ c ∈ s, p c = true) (hr : Ends p rest) : (s ++ rest).takeWhile p = s := by
  rw [List.takeWhile_append_of_pos hs]
  cases rest with
  | nil => exact List.append_nil s
  | cons c rest => rw [List.takeWhile_cons_of_neg (by rw [hr c rfl]; decide), List.append_nil]

theorem dropWhile_of_ends (hs : ∀ c ∈ s, p c = true) (hr : Ends p rest) : (s ++ rest).dropWhile p = rest := by
  rw [List.dropWhile_append_of_pos hs]
  cases rest with
  | nil => rfl
  | cons c rest => rw [List.dropWhile_cons_of_neg (by rw [hr c rfl]; decide)]

end Ends

/-- Digits, one at least. -/
structure AreDigits (s : List Char) : Prop where
  ne_nil : s ≠ []
  isDigit : ∀ c ∈ s, c.isDigit = true

theorem areDigits_toDigits (n : Nat) : AreDigits (Nat.toDigits 10 n) :=
  ⟨List.length_pos_iff.1 Nat.length_toDigits_pos,
    fun _ h => Nat.isDigit_of_mem_toDigits (by decide) (by decide) h⟩

theorem toDigits_injective : Function.Injective (Nat.toDigits 10) :=
  Function.LeftInverse.injective (g := fun s => Nat.ofDigitChars 10 s 0)
    fun _ => Nat.ofDigitChars_toDigits (by decide) (by decide)

end Text

namespace Value
variable {s rest whole fraction : List Char} {e : Int} {place : Nat}

/-! ### Reading numerals -/

/-- The digits of a number end where its exponent starts. -/
theorem ends_of_exponent? (h : exponent? rest = some e) : Text.Ends Char.isDigit rest := by
  cases rest with
  | nil => nofun
  | cons c rest =>
    unfold exponent? at h
    dsimp only at h
    split_ifs at h with hc
    refine Text.ends_cons ?_ rest
    rcases hc.1 with rfl | rfl <;> decide

/-- A numeral without a point. -/
theorem decimalPlace?_whole (hw : Text.AreDigits whole) (he : exponent? rest = some e) :
    decimalPlace? (whole ++ rest) = some (placeOfDecimal (Nat.ofDigitChars 10 whole 0) e) := by
  have hr := ends_of_exponent? he
  have hsplit : splitFraction rest = ([], rest) := by
    unfold splitFraction
    split
    next => cases he
    next => rfl
  unfold decimalPlace?
  simp only [Text.takeWhile_of_ends hw.isDigit hr, Text.dropWhile_of_ends hw.isDigit hr, hsplit, he, hw.ne_nil,
    false_and, if_false, Option.map_some, List.append_nil, List.length_nil, Nat.cast_zero, sub_zero]

/-- A numeral with a point. -/
theorem decimalPlace?_point (hw : Text.AreDigits whole) (hf : ∀ c ∈ fraction, c.isDigit = true)
    (he : exponent? rest = some e) : decimalPlace? (whole ++ '.' :: (fraction ++ rest))
      = some (placeOfDecimal (Nat.ofDigitChars 10 (whole ++ fraction) 0) (e - fraction.length)) := by
  have hr := ends_of_exponent? he
  have hpoint : Text.Ends Char.isDigit ('.' :: (fraction ++ rest)) := Text.ends_cons (by decide) _
  have hsplit : splitFraction ('.' :: (fraction ++ rest)) = (fraction, rest) := by
    rw [splitFraction, Text.takeWhile_of_ends hf hr, Text.dropWhile_of_ends hf hr]
  unfold decimalPlace?
  simp only [Text.takeWhile_of_ends hw.isDigit hpoint, Text.dropWhile_of_ends hw.isDigit hpoint, hsplit, he,
    hw.ne_nil, false_and, if_false, Option.map_some]

/-- The exponent of scientific notation. -/
theorem exponent?_scientific (e : Int) :
    exponent? ('e' :: (if e < 0 then '-' else '+') :: Nat.toDigits 10 e.natAbs) = some e := by
  have hd := Text.areDigits_toDigits e.natAbs
  have hn : Nat.ofDigitChars 10 (Nat.toDigits 10 e.natAbs) 0 = e.natAbs :=
    Nat.ofDigitChars_toDigits (by decide) (by decide)
  have hall : (Nat.toDigits 10 e.natAbs).all Char.isDigit = true := List.all_eq_true.2 hd.isDigit
  have hsplit : Text.splitSign ((if e < 0 then '-' else '+') :: Nat.toDigits 10 e.natAbs)
      = (decide (e < 0), Nat.toDigits 10 e.natAbs) := by
    by_cases hneg : e < 0 <;> simp [hneg, Text.splitSign]
  have hsigned : Text.signed (decide (e < 0)) (Nat.toDigits 10 e.natAbs) = e := by
    rw [Text.signed, hn]
    by_cases hneg : e < 0
    · simp only [hneg, decide_true, if_true]
      omega
    · simp only [hneg, decide_false, Bool.false_eq_true, if_false]
      omega
  unfold exponent?
  simp only [hsplit, hsigned, hd.ne_nil, hall, true_or, ne_eq, not_false_eq_true, and_self, if_true]

theorem splitSign_of_decimalPlace? (h : decimalPlace? s = some place) : Text.splitSign s = (false, s) := by
  unfold Text.splitSign
  split
  next => cases h
  next => cases h
  next => rfl

theorem ofPlace_place (v : Value) : ofPlace v.negative v.place = v := by
  obtain ⟨bits⟩ := v
  have hlt : bits.toNat < 2 * signWeight := bits.toNat_lt
  have hbits : bits.toNat % signWeight + (if signWeight ≤ bits.toNat then signWeight else 0) = bits.toNat := by
    split_ifs with h
    · rw [Nat.mod_eq_sub_mod h, Nat.mod_eq_of_lt (by omega), Nat.sub_add_cancel h]
    · rw [Nat.mod_eq_of_lt (by omega), Nat.add_zero]
  simp only [ofPlace, place, negative, decide_eq_true_eq, hbits, UInt64.ofNat_toNat]

end Value

namespace Export
open Text (AreDigits)
open Value (decimalPlace? placeOfDecimal)
variable {digits : List Char} {whole exponent : Int} {n : Nat}

/-- A text reads as a number: as a decimal that stands for it. -/
def ReadsAs (s : List Char) (x : ℚ) : Prop :=
  ∃ (n : Nat) (e : Int), decimalPlace? s = some (placeOfDecimal n e) ∧ n * 10 ^ e = x

theorem readsAs_point {w f : List Char} {x : ℚ} (hw : Text.AreDigits w) (hf : ∀ c ∈ f, c.isDigit = true)
    (hx : Nat.ofDigitChars 10 (w ++ f) 0 * 10 ^ (-f.length : Int) = x) : ReadsAs (w ++ '.' :: f) x := by
  have hplace := Value.decimalPlace?_point hw hf (show Value.exponent? [] = some 0 from rfl)
  rw [List.append_nil, zero_sub] at hplace
  exact ⟨_, _, hplace, hx⟩

theorem isDigit_zeros (count : Nat) : ∀ c ∈ zeros count, c.isDigit = true := by
  intro c hc
  rw [List.eq_of_mem_replicate hc]
  decide

theorem ofDigitChars_zeros (count init : Nat) : Nat.ofDigitChars 10 (zeros count) init = 10 ^ count * init :=
  Nat.ofDigitChars_replicate_zero

/-- Digits with a point among them, or with zeros up to it. -/
theorem readsAs_positional (hd : AreDigits digits) (whole : Int) : ReadsAs (positional digits whole)
    (Nat.ofDigitChars 10 digits 0 * 10 ^ (whole - digits.length)) := by
  unfold positional
  split_ifs with hleft hright
  · have htext : ['0', '.'] ++ zeros (-whole).toNat ++ digits
        = zeros 1 ++ '.' :: (zeros (-whole).toNat ++ digits) := by simp [zeros]
    have hexponent : (-(zeros (-whole).toNat ++ digits).length : Int) = whole - digits.length := by
      rw [List.length_append, zeros, List.length_replicate]
      omega
    rw [htext]
    refine readsAs_point ⟨by decide, isDigit_zeros 1⟩
      (List.forall_mem_append.2 ⟨isDigit_zeros _, hd.isDigit⟩) ?_
    rw [Nat.ofDigitChars_append, Nat.ofDigitChars_append, ofDigitChars_zeros, ofDigitChars_zeros, Nat.mul_zero,
      Nat.mul_zero, hexponent]
  · obtain ⟨count, rfl⟩ : ∃ count : Nat, whole = digits.length + count :=
      ⟨(whole - digits.length).toNat, by omega⟩
    have hcount : ((digits.length + count : Int)).toNat - digits.length = count := by omega
    have htext : digits ++ zeros count ++ ['.', '0'] = (digits ++ zeros count) ++ '.' :: zeros 1 := by
      simp [zeros]
    rw [hcount, htext]
    refine readsAs_point ⟨List.append_ne_nil_of_left_ne_nil hd.ne_nil _,
      List.forall_mem_append.2 ⟨hd.isDigit, isDigit_zeros _⟩⟩ (isDigit_zeros 1) ?_
    rw [Nat.ofDigitChars_append, Nat.ofDigitChars_append, ofDigitChars_zeros, ofDigitChars_zeros,
      add_sub_cancel_left, zeros, List.length_replicate, zpow_neg, zpow_natCast, zpow_natCast]
    push_cast
    field_simp
  · have htext : digits.take whole.toNat ++ ['.'] ++ digits.drop whole.toNat
        = digits.take whole.toNat ++ '.' :: digits.drop whole.toNat := by simp
    have hexponent : (-(digits.drop whole.toNat).length : Int) = whole - digits.length := by
      rw [List.length_drop]
      omega
    rw [htext]
    refine readsAs_point ⟨?_, fun c hc => hd.isDigit c (List.mem_of_mem_take hc)⟩
      (fun c hc => hd.isDigit c (List.mem_of_mem_drop hc)) ?_
    · rw [← List.length_pos_iff, List.length_take]
      omega
    · rw [List.take_append_drop, hexponent]

/-- Digits with a point after the first, and an exponent. -/
theorem readsAs_scientific (hd : AreDigits digits) (exponent : Int) :
    ReadsAs (scientific digits exponent)
      (Nat.ofDigitChars 10 digits 0 * 10 ^ (exponent + 1 - digits.length)) := by
  have he := Value.exponent?_scientific exponent
  obtain ⟨d, rest, rfl⟩ := List.exists_cons_of_ne_nil hd.ne_nil
  cases rest with
  | nil =>
    have htext : scientific [d] exponent
        = [d] ++ 'e' :: (if exponent < 0 then '-' else '+') :: Nat.toDigits 10 exponent.natAbs := rfl
    rw [htext]
    refine ⟨_, _, Value.decimalPlace?_whole hd he, ?_⟩
    rw [List.length_singleton, Nat.cast_one, add_sub_cancel_right]
  | cons c rest =>
    have htext : scientific (d :: c :: rest) exponent = [d] ++ '.' :: (c :: rest ++
        'e' :: (if exponent < 0 then '-' else '+') :: Nat.toDigits 10 exponent.natAbs) := by
      simp [scientific]
    have hfirst : AreDigits [d] :=
      ⟨List.cons_ne_nil _ _, fun c hc => hd.isDigit c (List.mem_cons.2 (.inl (List.mem_singleton.1 hc)))⟩
    have hexponent : exponent + 1 - ((d :: c :: rest).length : Int) = exponent - (c :: rest).length := by
      simp only [List.length_cons]
      omega
    rw [htext, hexponent]
    have hrest : ∀ c' ∈ c :: rest, c'.isDigit = true := fun c' hc => hd.isDigit c' (List.mem_cons_of_mem _ hc)
    exact ⟨_, _, Value.decimalPlace?_point hfirst hrest he, rfl⟩

theorem readsAs_decimal (d : Decimal) : ReadsAs (decimal d) d.number := by
  have hd := Text.areDigits_toDigits d.digits
  have hn : Nat.ofDigitChars 10 (Nat.toDigits 10 d.digits) 0 = d.digits :=
    Nat.ofDigitChars_toDigits (by decide) (by decide)
  unfold decimal
  dsimp only
  split_ifs with hzero hplain
  · refine readsAs_point (w := zeros 1) (f := zeros 1) ⟨by decide, isDigit_zeros 1⟩ (isDigit_zeros 1) ?_
    rw [Nat.ofDigitChars_append, ofDigitChars_zeros, ofDigitChars_zeros, Nat.mul_zero, Nat.mul_zero,
      Decimal.number, hzero, Nat.cast_zero, zero_mul, zero_mul]
  · have h := readsAs_positional hd (d.exponent + (Nat.toDigits 10 d.digits).length)
    rwa [hn, add_sub_cancel_right] at h
  · have h := readsAs_scientific hd (d.exponent + (Nat.toDigits 10 d.digits).length - 1)
    rwa [hn, sub_add_cancel, add_sub_cancel_right] at h

/-- The number of a finite value in JSON reads as the magnitude of the value. -/
theorem decimalPlace?_decimal {v : Value} (h : v.isFinite = true) :
    decimalPlace? (decimal v.shortest) = some v.place := by
  obtain ⟨n, e, hread, hn⟩ := readsAs_decimal v.shortest
  rw [hread]
  by_cases hzero : v.place = 0
  · have hnumber : v.shortest.number = 0 := by
      rw [Value.shortest, if_pos hzero, Decimal.number, Nat.cast_zero, zero_mul]
    have hn : n = 0 := by
      rw [hnumber, mul_eq_zero, Nat.cast_eq_zero] at hn
      exact hn.resolve_right (zpow_ne_zero _ (by norm_num))
    rw [hn, hzero, placeOfDecimal]
    rfl
  · refine congrArg some (Value.placeOfDecimal_eq (Nat.pos_of_ne_zero hzero) (of_decide_eq_true h) ?_)
    rw [hn]
    exact Value.roundsTo_shortest hzero

/-- A finite value can be read back from its number in JSON. -/
theorem ofNumeral?_value {v : Value} (h : v.isFinite = true) : Value.ofNumeral? (value v) = some v := by
  have hread := decimalPlace?_decimal h
  have hmagnitude : Value.magnitude? (decimal v.shortest) = some v.place := by
    rw [Value.magnitude?, hread]
  have hsign : Text.splitSign (value v) = (v.negative, decimal v.shortest) := by
    rw [value, if_pos h]
    cases v.negative with
    | false => exact Value.splitSign_of_decimalPlace? hread
    | true => rfl
  rw [Value.ofNumeral?, hsign]
  show (Value.magnitude? (decimal v.shortest)).map (Value.ofPlace v.negative) = some v
  rw [hmagnitude, Option.map_some, Value.ofPlace_place]

end Export
end Campaign
