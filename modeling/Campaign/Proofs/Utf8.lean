import Mathlib
import Campaign.Text.Utf8

/-!
# Bytes that are text

The strict reading takes the bytes that a text is written with, and no others (`ofUtf8?_eq_some`). So two
names of files that read as one text are the same bytes.
-/

namespace Campaign.Text

open String (utf8EncodeChar)

variable {c : Char} {b : UInt8} {bs bytes : List UInt8} {g : Begun} {pieces : List (Option Char)}
  {r : Utf8Reading} {s : List Char}

/-! ### Characters begun -/

/-- The bytes continue the character begun and end it. -/
inductive Completes : Begun → List UInt8 → Char → Prop
  | last {g : Begun} {b : UInt8} (hl : g.lacking ≤ 1) (hb : g.least ≤ b.toNat ∧ b.toNat ≤ g.greatest) :
      Completes g [b] (Char.ofNat (g.bits * 64 + b.toNat % 64))
  | more {g : Begun} {b : UInt8} {bs : List UInt8} {c : Char} (hl : 1 < g.lacking)
      (hb : g.least ≤ b.toNat ∧ b.toNat ≤ g.greatest)
      (h : Completes ⟨g.bits * 64 + b.toNat % 64, g.lacking - 1, 0x80, 0xBF⟩ bs c) : Completes g (b :: bs) c

theorem completes_one {bits least greatest : Nat} : Completes ⟨bits, 1, least, greatest⟩ bs c ↔
    ∃ b, bs = [b] ∧ (least ≤ b.toNat ∧ b.toNat ≤ greatest) ∧ c = Char.ofNat (bits * 64 + b.toNat % 64) := by
  constructor
  · intro h
    cases h with
    | last _ hb => exact ⟨_, rfl, hb, rfl⟩
    | more hl => exact absurd hl (Nat.lt_irrefl 1)
  · rintro ⟨b, rfl, hb, rfl⟩
    exact .last (Nat.le_refl 1) hb

theorem completes_more {bits lacking least greatest : Nat} :
    Completes ⟨bits, lacking + 2, least, greatest⟩ bs c ↔
      ∃ b bs', bs = b :: bs' ∧ (least ≤ b.toNat ∧ b.toNat ≤ greatest) ∧
        Completes ⟨bits * 64 + b.toNat % 64, lacking + 1, 0x80, 0xBF⟩ bs' c := by
  constructor
  · intro h
    cases h with
    | last hl => exact absurd hl (by simp)
    | more _ hb h => exact ⟨_, _, rfl, hb, h⟩
  · rintro ⟨b, bs', rfl, hb, h⟩
    exact .more (by simp) hb h

/-! ### First bytes -/

theorem ofByte_whole (h : b.toNat < 0x80) : FirstByte.ofByte b = .whole (Char.ofNat b.toNat) :=
  if_pos h

theorem ofByte_two (h : 0xC2 ≤ b.toNat ∧ b.toNat ≤ 0xDF) :
    FirstByte.ofByte b = .start ⟨b.toNat % 32, 1, 0x80, 0xBF⟩ := by
  rw [FirstByte.ofByte, if_neg (by omega), if_neg (by omega), if_pos (by omega)]

theorem ofByte_three (h : 0xE0 ≤ b.toNat ∧ b.toNat ≤ 0xEF) : FirstByte.ofByte b = .start
    ⟨b.toNat % 16, 2, if b.toNat = 0xE0 then 0xA0 else 0x80, if b.toNat = 0xED then 0x9F else 0xBF⟩ := by
  rw [FirstByte.ofByte, if_neg (by omega), if_neg (by omega), if_neg (by omega)]
  by_cases hlow : b.toNat = 0xE0
  · simp [hlow]
  by_cases hhigh : b.toNat = 0xED
  · simp [hhigh]
  rw [if_neg hlow, if_neg hhigh, if_pos (by omega), if_neg hlow, if_neg hhigh]

theorem ofByte_four (h : 0xF0 ≤ b.toNat ∧ b.toNat ≤ 0xF4) : FirstByte.ofByte b = .start
    ⟨b.toNat % 8, 3, if b.toNat = 0xF0 then 0x90 else 0x80, if b.toNat = 0xF4 then 0x8F else 0xBF⟩ := by
  rw [FirstByte.ofByte, if_neg (by omega), if_neg (by omega), if_neg (by omega), if_neg (by omega),
    if_neg (by omega), if_neg (by omega)]
  by_cases hlow : b.toNat = 0xF0
  · simp [hlow]
  by_cases hhigh : b.toNat = 0xF4
  · simp [hhigh]
  rw [if_neg hlow, if_pos (by omega), if_neg hlow, if_neg hhigh]

theorem ofByte_damage (h : 0x80 ≤ b.toNat ∧ b.toNat < 0xC2 ∨ 0xF4 < b.toNat) : FirstByte.ofByte b = .damage := by
  rw [FirstByte.ofByte, if_neg (by omega)]
  by_cases hlow : b.toNat < 0xC2
  · rw [if_pos hlow]
  · rw [if_neg hlow, if_neg (by omega), if_neg (by omega), if_neg (by omega), if_neg (by omega),
      if_neg (by omega), if_neg (by omega), if_neg (by omega)]

/-- Each byte belongs to one of the five ranges. -/
theorem byte_cases (b : UInt8) : b.toNat < 0x80 ∨ 0xC2 ≤ b.toNat ∧ b.toNat ≤ 0xDF ∨
    0xE0 ≤ b.toNat ∧ b.toNat ≤ 0xEF ∨ 0xF0 ≤ b.toNat ∧ b.toNat ≤ 0xF4 ∨
    0x80 ≤ b.toNat ∧ b.toNat < 0xC2 ∨ 0xF4 < b.toNat := by
  omega

/-! ### The bytes of a character -/

theorem toNat_char (c : Char) : c.toNat < 0xD800 ∨ 0xDFFF < c.toNat ∧ c.toNat < 0x110000 :=
  c.valid

theorem toNat_byte {n : Nat} (h : n < 256) : (UInt8.ofNat n).toNat = n := by
  rw [UInt8.toNat_ofNat', Nat.mod_eq_of_lt h]

theorem eq_char {n : Nat} (h : n = c.toNat) : c = Char.ofNat n := by
  rw [h, Char.ofNat_toNat]

/-- The first byte of a character tells how the others go on. -/
theorem exists_begun (h : utf8EncodeChar c = b :: bs) :
    FirstByte.ofByte b = .whole c ∧ bs = [] ∨ ∃ g, FirstByte.ofByte b = .start g ∧ Completes g bs c := by
  have hc := toNat_char c
  have hval : c.val.toNat = c.toNat := rfl
  unfold utf8EncodeChar at h
  simp only [hval] at h
  split_ifs at h with h₁ h₂ h₃
  · obtain ⟨rfl, rfl⟩ := List.cons.inj h
    have hb := toNat_byte (n := c.toNat) (by omega)
    rw [ofByte_whole (by omega), hb, Char.ofNat_toNat]
    exact .inl ⟨rfl, rfl⟩
  · obtain ⟨rfl, rfl⟩ := List.cons.inj h
    have hb := toNat_byte (n := c.toNat / 64 % 32 + 192) (by omega)
    have hb₁ := toNat_byte (n := c.toNat % 64 + 128) (by omega)
    refine .inr ⟨_, ofByte_two (by omega), completes_one.2 ⟨_, rfl, ?_, ?_⟩⟩
    · rw [hb₁]; omega
    · rw [hb, hb₁]; exact eq_char (by omega)
  · obtain ⟨rfl, rfl⟩ := List.cons.inj h
    have hb := toNat_byte (n := c.toNat / 4096 % 16 + 224) (by omega)
    have hb₁ := toNat_byte (n := c.toNat / 64 % 64 + 128) (by omega)
    have hb₂ := toNat_byte (n := c.toNat % 64 + 128) (by omega)
    refine .inr ⟨_, ofByte_three (by omega), completes_more.2 ⟨_, _, rfl, ?_, completes_one.2 ⟨_, rfl, ?_, ?_⟩⟩⟩
    · rw [hb, hb₁]; split_ifs <;> omega
    · rw [hb₂]; omega
    · rw [hb, hb₁, hb₂]; exact eq_char (by omega)
  · obtain ⟨rfl, rfl⟩ := List.cons.inj h
    have hb := toNat_byte (n := c.toNat / 262144 % 8 + 240) (by omega)
    have hb₁ := toNat_byte (n := c.toNat / 4096 % 64 + 128) (by omega)
    have hb₂ := toNat_byte (n := c.toNat / 64 % 64 + 128) (by omega)
    have hb₃ := toNat_byte (n := c.toNat % 64 + 128) (by omega)
    refine .inr ⟨_, ofByte_four (by omega), completes_more.2 ⟨_, _, rfl, ?_,
      completes_more.2 ⟨_, _, rfl, ?_, completes_one.2 ⟨_, rfl, ?_, ?_⟩⟩⟩⟩
    · rw [hb, hb₁]; split_ifs <;> omega
    · rw [hb₂]; omega
    · rw [hb₃]; omega
    · rw [hb, hb₁, hb₂, hb₃]; exact eq_char (by omega)

theorem toNat_ofNat {n : Nat} (h : n < 0xD800 ∨ 0xDFFF < n ∧ n < 0x110000) :
    (Char.ofNat n).val.toNat = n := by
  have hn := Char.toNat_ofNat n
  rwa [if_pos h] at hn

theorem byte_eq {n : Nat} (h : n = b.toNat) : UInt8.ofNat n = b := by
  rw [h, UInt8.ofNat_toNat]

theorem encode_whole (h : FirstByte.ofByte b = .whole c) : utf8EncodeChar c = [b] := by
  rcases byte_cases b with hb | hb | hb | hb | hb
  · rw [ofByte_whole hb] at h
    obtain rfl := FirstByte.whole.inj h
    unfold utf8EncodeChar
    rw [toNat_ofNat (by omega)]
    dsimp only
    rw [if_pos (by omega), UInt8.ofNat_toNat]
  · rw [ofByte_two hb] at h; cases h
  · rw [ofByte_three hb] at h; cases h
  · rw [ofByte_four hb] at h; cases h
  · rw [ofByte_damage hb] at h; cases h

theorem encode_start (hg : FirstByte.ofByte b = .start g) (h : Completes g bs c) : utf8EncodeChar c = b :: bs := by
  have hlt := b.toNat_lt
  rcases byte_cases b with hb | hb | hb | hb | hb
  · rw [ofByte_whole hb] at hg; cases hg
  · rw [ofByte_two hb] at hg
    obtain rfl := FirstByte.start.inj hg
    obtain ⟨b₁, rfl, hb₁, rfl⟩ := completes_one.1 h
    unfold utf8EncodeChar
    rw [toNat_ofNat (by omega)]
    dsimp only
    rw [if_neg (by omega), if_pos (by omega), byte_eq (b := b) (by omega), byte_eq (b := b₁) (by omega)]
  · rw [ofByte_three hb] at hg
    obtain rfl := FirstByte.start.inj hg
    obtain ⟨b₁, _, rfl, hb₁, h⟩ := completes_more.1 h
    obtain ⟨b₂, rfl, hb₂, rfl⟩ := completes_one.1 h
    unfold utf8EncodeChar
    rw [toNat_ofNat (by split_ifs at hb₁ <;> omega)]
    dsimp only
    have hlow : 2047 < (b.toNat % 16 * 64 + b₁.toNat % 64) * 64 + b₂.toNat % 64 := by
      split_ifs at hb₁ <;> omega
    rw [if_neg (by omega), if_neg (by omega), if_pos (by omega), byte_eq (b := b) (by omega),
      byte_eq (b := b₁) (by split_ifs at hb₁ <;> omega), byte_eq (b := b₂) (by omega)]
  · rw [ofByte_four hb] at hg
    obtain rfl := FirstByte.start.inj hg
    obtain ⟨b₁, _, rfl, hb₁, h⟩ := completes_more.1 h
    obtain ⟨b₂, _, rfl, hb₂, h⟩ := completes_more.1 h
    obtain ⟨b₃, rfl, hb₃, rfl⟩ := completes_one.1 h
    unfold utf8EncodeChar
    rw [toNat_ofNat (by split_ifs at hb₁ <;> omega)]
    dsimp only
    have hlow : 65535 < ((b.toNat % 8 * 64 + b₁.toNat % 64) * 64 + b₂.toNat % 64) * 64 + b₃.toNat % 64 := by
      split_ifs at hb₁ <;> omega
    rw [if_neg (by omega), if_neg (by omega), if_neg (by omega), byte_eq (b := b) (by omega),
      byte_eq (b := b₁) (by split_ifs at hb₁ <;> omega), byte_eq (b := b₂) (by omega), byte_eq (b := b₃) (by omega)]
  · rw [ofByte_damage hb] at hg; cases hg

/-! ### Reading -/

theorem foldl_completes (h : Completes g bs c) : bs.foldl Utf8Reading.step ⟨pieces, some g⟩ = ⟨some c :: pieces, none⟩ := by
  induction h with
  | last hl hb => simp [Utf8Reading.step, hb, hl]
  | more hl hb _ ih => simpa [Utf8Reading.step, hb, Nat.not_le.2 hl] using ih

theorem foldl_encode (c : Char) :
    (utf8EncodeChar c).foldl Utf8Reading.step ⟨pieces, none⟩ = ⟨some c :: pieces, none⟩ := by
  obtain ⟨b, bs, he⟩ := List.exists_cons_of_ne_nil (String.utf8EncodeChar_ne_nil (c := c))
  rw [he, List.foldl_cons]
  rcases exists_begun he with ⟨hb, rfl⟩ | ⟨g, hb, h⟩
  · rw [Utf8Reading.step, Utf8Reading.begin, hb]
    rfl
  · rw [Utf8Reading.step, Utf8Reading.begin, hb]
    exact foldl_completes h

theorem foldl_flatMap_encode (s : List Char) :
    (s.flatMap utf8EncodeChar).foldl Utf8Reading.step ⟨pieces, none⟩ = ⟨(s.map some).reverse ++ pieces, none⟩ := by
  induction s generalizing pieces with
  | nil => rfl
  | cons c s ih => rw [List.flatMap_cons, List.foldl_append, foldl_encode, ih]; simp

theorem none_mem_begin (h : none ∈ pieces) : none ∈ (Utf8Reading.begin pieces b).pieces := by
  unfold Utf8Reading.begin
  split
  · exact List.mem_cons_of_mem _ h
  · exact h
  · exact List.mem_cons_self

theorem none_mem_step (h : none ∈ r.pieces) : none ∈ (r.step b).pieces := by
  unfold Utf8Reading.step
  split
  · exact none_mem_begin h
  · dsimp only
    split_ifs
    · exact List.mem_cons_of_mem _ h
    · exact h
    · exact none_mem_begin List.mem_cons_self

/-- Damage once met stays. -/
theorem none_mem_finish (h : none ∈ r.pieces) : none ∈ (bytes.foldl Utf8Reading.step r).finish := by
  induction bytes generalizing r with
  | nil =>
    rw [List.foldl_nil, Utf8Reading.finish]
    cases r.begun with
    | none => exact List.mem_reverse.2 h
    | some g => exact List.mem_reverse.2 List.mem_cons_self
  | cons b bytes ih => exact ih (none_mem_step h)

/-- The bytes go on with a text, from between two characters or from within one. -/
inductive GoesOn : Option Begun → List UInt8 → List Char → Prop
  | between (s : List Char) : GoesOn none (s.flatMap utf8EncodeChar) s
  | within {g : Begun} {bs : List UInt8} {c : Char} (h : Completes g bs c) (s : List Char) :
      GoesOn (some g) (bs ++ s.flatMap utf8EncodeChar) (c :: s)

theorem GoesOn.begin (h : GoesOn (Utf8Reading.begin pieces b).begun bytes s)
    (hp : none ∉ (Utf8Reading.begin pieces b).pieces) : ∃ s', GoesOn none (b :: bytes) s' ∧
      (Utf8Reading.begin pieces b).pieces.reverse ++ s.map some = pieces.reverse ++ s'.map some := by
  unfold Utf8Reading.begin at h hp ⊢
  cases hb : FirstByte.ofByte b with
  | whole c =>
    rw [hb] at h
    cases h
    refine ⟨c :: s, ?_, by simp⟩
    have hs := GoesOn.between (c :: s)
    rwa [List.flatMap_cons, encode_whole hb] at hs
  | start g =>
    rw [hb] at h
    obtain - | @⟨_, bs, c, hg, s⟩ := h
    refine ⟨c :: s, ?_, rfl⟩
    have hs := GoesOn.between (c :: s)
    rwa [List.flatMap_cons, encode_start hb hg] at hs
  | damage =>
    rw [hb] at hp
    exact absurd List.mem_cons_self hp

theorem GoesOn.step (h : GoesOn (r.step b).begun bytes s) (hp : none ∉ (r.step b).pieces) :
    ∃ s', GoesOn r.begun (b :: bytes) s' ∧
      (r.step b).pieces.reverse ++ s.map some = r.pieces.reverse ++ s'.map some := by
  unfold Utf8Reading.step at h hp ⊢
  cases hr : r.begun with
  | none =>
    simp only [hr] at h hp
    exact h.begin hp
  | some g =>
    simp only [hr] at h hp ⊢
    by_cases hb : g.least ≤ b.toNat && b.toNat ≤ g.greatest
    · have hbounds : g.least ≤ b.toNat ∧ b.toNat ≤ g.greatest := by simpa using hb
      rw [if_pos hb] at h hp ⊢
      by_cases hl : g.lacking ≤ 1
      · rw [if_pos hl] at h hp ⊢
        cases h
        exact ⟨_ :: s, .within (.last hl hbounds) s, by simp⟩
      · rw [if_neg hl] at h hp ⊢
        obtain - | ⟨hg, s⟩ := h
        exact ⟨_ :: s, .within (.more (by omega) hbounds hg) s, rfl⟩
    · rw [if_neg hb] at hp
      exact absurd (none_mem_begin List.mem_cons_self) hp

/-- What is read without damage is the text that the bytes go on with. -/
theorem exists_goesOn (h : none ∉ (bytes.foldl Utf8Reading.step r).finish) :
    ∃ s, GoesOn r.begun bytes s ∧
      (bytes.foldl Utf8Reading.step r).finish = r.pieces.reverse ++ s.map some := by
  induction bytes generalizing r with
  | nil =>
    rw [List.foldl_nil, Utf8Reading.finish] at h ⊢
    cases hr : r.begun with
    | none => exact ⟨[], .between [], by simp⟩
    | some g =>
      simp only [hr] at h
      exact absurd (List.mem_reverse.2 List.mem_cons_self) h
  | cons b bytes ih =>
    rw [List.foldl_cons] at h ⊢
    have hp : none ∉ (r.step b).pieces := fun hm => h (none_mem_finish hm)
    obtain ⟨s, hs, he⟩ := ih h
    obtain ⟨s', hs', he'⟩ := hs.step hp
    exact ⟨s', hs', he.trans he'⟩

/-! ### Texts -/

theorem mapM_id_eq_some {α : Type} {l : List (Option α)} {as : List α} : l.mapM id = some as ↔ l = as.map some := by
  induction l generalizing as with
  | nil => cases as <;> simp
  | cons a l ih =>
    simp only [List.mapM_cons, id, Option.bind_eq_bind, Option.bind_eq_some_iff, ih]
    constructor
    · rintro ⟨a, rfl, as, rfl, h⟩
      rw [← Option.some.inj h, List.map_cons]
    · intro h
      cases as with
      | nil => cases h
      | cons b bs =>
        obtain ⟨rfl, rfl⟩ := List.cons.inj h
        exact ⟨b, rfl, bs, rfl, rfl⟩

/-- The strict reading takes the bytes of a text and no others. -/
theorem ofUtf8?_eq_some : ofUtf8? bytes = some s ↔ bytes = s.flatMap utf8EncodeChar := by
  rw [ofUtf8?, mapM_id_eq_some, utf8Pieces]
  constructor
  · intro h
    have hwhole : none ∉ (bytes.foldl Utf8Reading.step ⟨[], none⟩).finish := by simp [h]
    obtain ⟨s', hs', he⟩ := exists_goesOn hwhole
    rw [h] at he
    obtain rfl : s = s' := List.map_injective_iff.2 (Option.some_injective _) (by simpa using he)
    cases hs'
    rfl
  · rintro rfl
    rw [foldl_flatMap_encode, Utf8Reading.finish]
    simp

theorem toList_loop (array : ByteArray) (i : Nat) (read : List UInt8) :
    ByteArray.toList.loop array i read = read.reverse ++ array.data.toList.drop i := by
  fun_induction ByteArray.toList.loop array i read with
  | case1 i read hi ih =>
    have hlt : i < array.data.toList.length := by simpa using hi
    rw [ih, List.drop_eq_getElem_cons hlt]
    simp [ByteArray.get!, hi]
  | case2 i read hi =>
    rw [List.drop_eq_nil_of_le (by simpa using Nat.le_of_not_lt hi)]
    simp

theorem toUtf8_eq (t : String) : toUtf8 t = t.toList.flatMap utf8EncodeChar := by
  have hbytes : t.toUTF8 = (t.toList.flatMap utf8EncodeChar).toByteArray := by
    rw [← List.utf8Encode, String.utf8Encode_toList]
    rfl
  rw [toUtf8, hbytes, ByteArray.toList, toList_loop]
  simp

theorem ofUtf8?_eq_some_toList {t : String} : ofUtf8? bytes = some t.toList ↔ bytes = toUtf8 t := by
  rw [ofUtf8?_eq_some, toUtf8_eq]

end Campaign.Text
