import Mathlib
import Campaign.Log.Heading

/-!
# Words and outcome lines

What it takes for a text to have no words and for a piece to occur in it, and from that what the lines
of a log say: which are noise, and which name an outcome.
-/

namespace Campaign

namespace Text

theorem closeWord_eq_nil {word : List Char} : closeWord word = [] ↔ word = [] := by
  cases word <;> simp [closeWord]

theorem wordsAfter_eq_nil {word s : List Char} : wordsAfter word s = [] ↔ word = [] ∧ ∀ c ∈ s, isBlank c := by
  induction s generalizing word with
  | nil => simp [wordsAfter, closeWord_eq_nil]
  | cons c s ih =>
    rw [wordsAfter]
    split_ifs with hc
    · simp [ih, closeWord_eq_nil, hc]
    · simp [ih, hc]

/-- A text without words has blanks only. -/
theorem words_eq_nil {s : List Char} : words s = [] ↔ ∀ c ∈ s, isBlank c := by
  simp [words, wordsAfter_eq_nil]

theorem occursIn_iff {needle s : List Char} : occursIn needle s = true ↔ needle <:+: s := by
  induction s with
  | nil => simp [occursIn]
  | cons c s ih =>
    rw [occursIn, Bool.or_eq_true, List.isPrefixOf_iff_prefix, ih, List.infix_cons_iff]

end Text

namespace Log
variable {marker line word : List Char}

/-- After blanks and the marker, the line has `word` as its last word. -/
def EndsWith (marker line word : List Char) : Prop :=
  ∃ rest, Text.trim line = marker ++ rest ∧ (Text.words rest).getLast? = some word

/-- Nothing but blanks stands after the marker, if the line starts with the marker at all. -/
def IsNoise (marker line : List Char) : Prop :=
  ∀ rest, Text.trim line = marker ++ rest → ∀ c ∈ rest, Text.isBlank c

namespace Heading

theorem word?_of_trim {rest : List Char} (h : Text.trim line = marker ++ rest) :
    word? marker line = (Text.words rest).getLast? := by
  have hm : marker.isPrefixOf (marker ++ rest) = true := List.isPrefixOf_iff_prefix.2 (List.prefix_append _ _)
  simp only [word?, h, hm, ↓reduceIte, List.drop_left]

theorem word?_of_ne (h : ∀ rest, Text.trim line ≠ marker ++ rest) : word? marker line = none := by
  rw [word?, if_neg]
  rw [List.isPrefixOf_iff_prefix]
  rintro ⟨rest, hr⟩
  exact h rest hr.symm

theorem word?_eq_some : word? marker line = some word ↔ EndsWith marker line word := by
  constructor
  · intro h
    by_cases hp : ∃ rest, Text.trim line = marker ++ rest
    · obtain ⟨rest, hr⟩ := hp
      exact ⟨rest, hr, word?_of_trim hr ▸ h⟩
    · rw [word?_of_ne fun rest hr => hp ⟨rest, hr⟩] at h
      cases h
  · rintro ⟨rest, hr, hw⟩
    rw [word?_of_trim hr, hw]

theorem word?_eq_none : word? marker line = none ↔ IsNoise marker line := by
  constructor
  · intro h rest hr
    rw [word?_of_trim hr, List.getLast?_eq_none_iff] at h
    exact Text.words_eq_nil.1 h
  · intro h
    by_cases hp : ∃ rest, Text.trim line = marker ++ rest
    · obtain ⟨rest, hr⟩ := hp
      rw [word?_of_trim hr, Text.words_eq_nil.2 (h rest hr)]; rfl
    · exact word?_of_ne fun rest hr => hp ⟨rest, hr⟩

theorem ofLine_eq_noise : ofLine marker line = noise ↔ IsNoise marker line := by
  rw [← word?_eq_none, ofLine]
  cases word? marker line with
  | none => simp
  | some word => simp only [ofWord, reduceCtorEq, iff_false]; split_ifs <;> simp

theorem ofLine_eq_failed : ofLine marker line = failed ↔ EndsWith marker line "Failed".toList := by
  rw [← word?_eq_some, ofLine]
  cases word? marker line with
  | none => simp
  | some word =>
    simp only [ofWord, Option.some_inj]
    split_ifs with h₁ h₂
    · exact iff_of_true rfl h₁
    · exact iff_of_false (by simp) h₁
    · exact iff_of_false (by simp) h₁

theorem ofLine_eq_succeeded : ofLine marker line = succeeded ↔ EndsWith marker line "OK".toList := by
  rw [← word?_eq_some, ofLine]
  cases word? marker line with
  | none => simp
  | some word =>
    simp only [ofWord, Option.some_inj]
    split_ifs with h₁ h₂
    · exact iff_of_false (by simp) fun h => absurd (h₁.symm.trans h) (by decide)
    · exact iff_of_true rfl h₂
    · exact iff_of_false (by simp) h₂

end Heading

theorem opensStatistics_iff : opensStatistics line = true ↔ "Statistics".toList <:+: line :=
  Text.occursIn_iff

end Log
end Campaign
