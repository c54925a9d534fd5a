import Mathlib
import Campaign.Export
import Campaign.Proofs.Numeral

/-!
# Items of arrays and objects

In a JSON text an item ends where a comma, a bracket or the end of a line stands. So an item can be told from
any text that it stands in (`IsItem.isDelimited`), and the items of an array or an object from the text of the
whole (`array_inj`, `object_inj`).
-/

namespace Campaign.Export
variable {l : Layout} {depth depth' : Nat} {opening closing : Char} {x y s t : List Char}
variable {xs ys : List (List Char)}

/-- A character of numbers and of `null`. -/
def isTokenChar (c : Char) : Bool :=
  c.isAlphanum || c == '.' || c == '-' || c == '+'

/-- The text of a named item. -/
def member (l : Layout) (m : String × List Char) : List Char :=
  ['"'] ++ m.1.toList ++ ['"'] ++ l.colon ++ m.2

/-- The texts that stand in arrays and objects at a depth. -/
inductive IsItem (l : Layout) : (depth : Nat) → List Char → Prop
  | token {depth : Nat} {s : List Char} (hne : s ≠ []) (h : ∀ c ∈ s, isTokenChar c = true) :
      IsItem l depth s
  | array {depth : Nat} {items : List (List Char)} (h : ∀ item ∈ items, IsItem l (depth + 1) item) :
      IsItem l depth (array l depth items)
  | object {depth : Nat} {members : List (String × List Char)} (hname : ∀ m ∈ members, '"' ∉ m.1.toList)
      (h : ∀ m ∈ members, IsItem l (depth + 1) m.2) : IsItem l depth (object l depth members)

/-- What may follow an item. -/
def EndsItem (s : List Char) : Prop :=
  Text.Ends isTokenChar s

/-- In front of what may follow it, `x` can be told from all other texts with `p`. -/
def IsDelimited (p : List Char → Prop) (x : List Char) : Prop :=
  ∀ y s t, p y → EndsItem s → EndsItem t → x ++ s = y ++ t → x = y ∧ s = t

/-- A text that starts with no closing bracket. -/
def Opens (x : List Char) : Prop :=
  ∃ c r, x = c :: r ∧ c ≠ ']' ∧ c ≠ '\x7d'

theorem endsItem_lineBreak (h : isTokenChar closing = false) (l : Layout) (depth : Nat) (s : List Char) :
    EndsItem (l.lineBreak depth ++ closing :: s) := by
  cases l with
  | compact => exact Text.ends_cons h s
  | indented => exact Text.ends_cons (by decide) _

theorem lineBreak_ne_comma (h : closing ≠ ',') (l : Layout) (depth : Nat) (s t : List Char) :
    l.lineBreak depth ++ closing :: s ≠ ',' :: t := by
  cases l with
  | compact => exact fun he => h (List.cons.inj he).1
  | indented => exact fun he => absurd (List.cons.inj he).1 (by decide)

theorem separated_single (r : List Char) : separated l depth [x] ++ r = l.lineBreak depth ++ (x ++ r) := by
  rw [separated, List.append_assoc]

theorem separated_cons_cons (r : List Char) : separated l depth (x :: y :: xs) ++ r
    = l.lineBreak depth ++ (x ++ ',' :: (separated l depth (y :: xs) ++ r)) := by
  simp [separated]

/-- Items that can be told apart one by one can be told apart in a row. -/
theorem separated_inj {p : List Char → Prop} (hxs : ∀ x ∈ xs, IsDelimited p x) (hys : ∀ y ∈ ys, p y)
    (hx : xs ≠ []) (hy : ys ≠ []) (hclosing : isTokenChar closing = false) (hcomma : closing ≠ ',')
    (h : separated l depth xs ++ (l.lineBreak depth' ++ closing :: s)
      = separated l depth ys ++ (l.lineBreak depth' ++ closing :: t)) : xs = ys ∧ s = t := by
  have hend := endsItem_lineBreak hclosing l depth'
  have hmore (r : List Char) : EndsItem (',' :: r) := Text.ends_cons (by decide) r
  induction xs generalizing ys with
  | nil => exact absurd rfl hx
  | cons x xs ih =>
    obtain ⟨y, ys, rfl⟩ := List.exists_cons_of_ne_nil hy
    have hxy := hxs x List.mem_cons_self y
    have hpy := hys y List.mem_cons_self
    cases xs with
    | nil =>
      cases ys with
      | nil =>
        rw [separated_single, separated_single, List.append_cancel_left_eq] at h
        obtain ⟨rfl, hst⟩ := hxy _ _ hpy (hend s) (hend t) h
        rw [List.append_cancel_left_eq, List.cons_inj_right] at hst
        exact ⟨rfl, hst⟩
      | cons y' ys =>
        -- where one row ends, the other has a comma
        rw [separated_single, separated_cons_cons, List.append_cancel_left_eq] at h
        exact absurd (hxy _ _ hpy (hend s) (hmore _) h).2 (lineBreak_ne_comma hcomma _ _ _ _)
    | cons x' xs =>
      cases ys with
      | nil =>
        rw [separated_cons_cons, separated_single, List.append_cancel_left_eq] at h
        exact absurd (hxy _ _ hpy (hmore _) (hend t) h).2.symm (lineBreak_ne_comma hcomma _ _ _ _)
      | cons y' ys =>
        rw [separated_cons_cons, separated_cons_cons, List.append_cancel_left_eq] at h
        obtain ⟨rfl, hrest⟩ := hxy _ _ hpy (hmore _) (hmore _) h
        rw [List.cons_inj_right] at hrest
        obtain ⟨hxs', hst⟩ := ih (List.forall_mem_cons.1 hxs).2 (List.forall_mem_cons.1 hys).2
          (List.cons_ne_nil _ _) (List.cons_ne_nil _ _) hrest
        exact ⟨congrArg _ hxs', hst⟩

theorem exists_separated (l : Layout) (depth : Nat) (y : List Char) (ys : List (List Char)) (t : List Char) :
    ∃ r, separated l depth (y :: ys) ++ t = l.lineBreak depth ++ (y ++ r) := by
  cases ys with
  | nil => exact ⟨_, separated_single t⟩
  | cons y' ys => exact ⟨_, separated_cons_cons t⟩

/-- A row of items does not start with a closing bracket. -/
theorem closing_ne_separated (hclosing : closing = ']' ∨ closing = '\x7d') (hy : Opens y) (s t : List Char) :
    closing :: s ≠ separated l depth (y :: ys) ++ t := by
  obtain ⟨c, r, rfl, hc, hc'⟩ := hy
  obtain ⟨r', hr'⟩ := exists_separated l depth (c :: r) ys t
  rw [hr']
  intro h
  cases l with
  | compact =>
    rcases hclosing with rfl | rfl
    · exact hc (List.cons.inj h).1.symm
    · exact hc' (List.cons.inj h).1.symm
  | indented => rcases hclosing with rfl | rfl <;> exact absurd (List.cons.inj h).1 (by decide)

theorem bracketed_nil (s : List Char) :
    bracketed l depth opening closing [] ++ s = opening :: closing :: s := rfl

theorem bracketed_cons (s : List Char) : bracketed l depth opening closing (x :: xs) ++ s
    = opening :: (separated l (depth + 1) (x :: xs) ++ (l.lineBreak depth ++ closing :: s)) := by
  simp [bracketed]

/-- The items between brackets can be told from the text, and the text ends with the closing bracket. -/
theorem bracketed_inj {p : List Char → Prop} (hp : ∀ y, p y → Opens y) (hpx : ∀ x ∈ xs, p x)
    (hxs : ∀ x ∈ xs, IsDelimited p x) (hys : ∀ y ∈ ys, p y) (hclosing : closing = ']' ∨ closing = '\x7d')
    (h : bracketed l depth opening closing xs ++ s = bracketed l depth opening closing ys ++ t) :
    xs = ys ∧ s = t := by
  cases xs with
  | nil =>
    cases ys with
    | nil => exact ⟨rfl, List.append_cancel_left h⟩
    | cons y ys =>
      rw [bracketed_nil, bracketed_cons, List.cons_inj_right] at h
      exact absurd h (closing_ne_separated hclosing (hp y (hys y List.mem_cons_self)) _ _)
  | cons x xs =>
    cases ys with
    | nil =>
      rw [bracketed_nil, bracketed_cons, List.cons_inj_right] at h
      exact absurd h.symm (closing_ne_separated hclosing (hp x (hpx x List.mem_cons_self)) _ _)
    | cons y ys =>
      rw [bracketed_cons, bracketed_cons, List.cons_inj_right] at h
      refine separated_inj hxs hys (List.cons_ne_nil _ _) (List.cons_ne_nil _ _) ?_ ?_ h
      · rcases hclosing with rfl | rfl <;> decide
      · rcases hclosing with rfl | rfl <;> decide

/-! ### Items of arrays and objects -/

theorem array_append (l : Layout) (depth : Nat) (items : List (List Char)) (s : List Char) :
    ∃ r, array l depth items ++ s = '[' :: r := by
  cases items with
  | nil => exact ⟨_, bracketed_nil s⟩
  | cons x xs => exact ⟨_, bracketed_cons s⟩

theorem object_append (l : Layout) (depth : Nat) (members : List (String × List Char)) (s : List Char) :
    ∃ r, object l depth members ++ s = '\x7b' :: r := by
  cases members with
  | nil => exact ⟨_, bracketed_nil s⟩
  | cons m members => exact ⟨_, bracketed_cons s⟩

theorem IsItem.opens (h : IsItem l depth x) : Opens x := by
  cases h with
  | token hne hs =>
    obtain ⟨c, r, rfl⟩ := List.exists_cons_of_ne_nil hne
    have hc := hs c List.mem_cons_self
    refine ⟨c, r, rfl, ?_, ?_⟩ <;> rintro rfl <;> exact absurd hc (by decide)
  | array =>
    obtain ⟨r, hr⟩ := array_append l depth _ []
    exact ⟨_, r, (List.append_nil _).symm.trans hr, by decide, by decide⟩
  | object =>
    obtain ⟨r, hr⟩ := object_append l depth _ []
    exact ⟨_, r, (List.append_nil _).symm.trans hr, by decide, by decide⟩

/-- No token starts like an array or an object. -/
theorem token_append_ne (hne : x ≠ []) (hs : ∀ c ∈ x, isTokenChar c = true)
    (hopening : isTokenChar opening = false) : x ++ s ≠ opening :: t := by
  obtain ⟨c, r, rfl⟩ := List.exists_cons_of_ne_nil hne
  intro h
  have hc := hs c List.mem_cons_self
  rw [(List.cons.inj h).1, hopening] at hc
  cases hc

theorem member_append (m : String × List Char) (s : List Char) :
    member l m ++ s = '"' :: (m.1.toList ++ '"' :: (l.colon ++ (m.2 ++ s))) := by
  simp [member]

theorem takeWhile_name {name : List Char} (h : '"' ∉ name) (r : List Char) :
    (name ++ '"' :: r).takeWhile (· ≠ '"') = name := by
  have hname : ∀ c ∈ name, decide (c ≠ '"') = true := fun c hc => decide_eq_true fun he => h (he ▸ hc)
  exact Text.takeWhile_of_ends hname (Text.ends_cons (by decide) r)

/-- A name ends at the first quote. -/
theorem member_inj {m m' : String × List Char} (hm : '"' ∉ m.1.toList) (hm' : '"' ∉ m'.1.toList)
    (h : member l m ++ s = member l m' ++ t) : m.1 = m'.1 ∧ m.2 ++ s = m'.2 ++ t := by
  rw [member_append, member_append, List.cons_inj_right] at h
  have hname : m.1.toList = m'.1.toList := by rw [← takeWhile_name hm, h, takeWhile_name hm']
  rw [hname, List.append_cancel_left_eq, List.cons_inj_right, List.append_cancel_left_eq] at h
  exact ⟨String.toList_inj.1 hname, h⟩

/-- Named items that can stand in an object at a depth. -/
structure AreMembers (l : Layout) (depth : Nat) (ms : List (String × List Char)) : Prop where
  name : ∀ m ∈ ms, '"' ∉ m.1.toList
  item : ∀ m ∈ ms, IsItem l (depth + 1) m.2

theorem AreMembers.nil : AreMembers l depth [] :=
  ⟨nofun, nofun⟩

theorem AreMembers.cons {name : String} {ms : List (String × List Char)} (hname : '"' ∉ name.toList)
    (hx : IsItem l (depth + 1) x) (h : AreMembers l depth ms) : AreMembers l depth ((name, x) :: ms) :=
  ⟨List.forall_mem_cons.2 ⟨hname, h.name⟩, List.forall_mem_cons.2 ⟨hx, h.item⟩⟩

theorem AreMembers.isItem {ms : List (String × List Char)} (h : AreMembers l depth ms) :
    IsItem l depth (object l depth ms) :=
  .object h.name h.item

/-- The texts of named items that stand in objects at a depth. -/
def IsMember (l : Layout) (depth : Nat) (x : List Char) : Prop :=
  ∃ m : String × List Char, '"' ∉ m.1.toList ∧ IsItem l (depth + 1) m.2 ∧ member l m = x

theorem IsMember.opens (h : IsMember l depth x) : Opens x := by
  obtain ⟨m, -, -, rfl⟩ := h
  exact ⟨_, _, (List.append_nil _).symm.trans (member_append m []), by decide, by decide⟩

theorem AreMembers.isMember {ms : List (String × List Char)} (h : AreMembers l depth ms) :
    ∀ x ∈ ms.map (member l), IsMember l depth x := by
  intro x hx
  obtain ⟨m, hm, rfl⟩ := List.mem_map.1 hx
  exact ⟨m, h.name m hm, h.item m hm, rfl⟩

theorem isDelimited_member {m : String × List Char} (hname : '"' ∉ m.1.toList)
    (h : IsDelimited (IsItem l (depth + 1)) m.2) : IsDelimited (IsMember l depth) (member l m) := by
  rintro _ s t ⟨m', hname', hm', rfl⟩ hends hendt he
  obtain ⟨hnames, hitems⟩ := member_inj hname hname' he
  obtain ⟨hitem, hst⟩ := h _ _ _ hm' hends hendt hitems
  exact ⟨congrArg (member l) (Prod.ext hnames hitem), hst⟩

theorem members_inj {ms ms' : List (String × List Char)} (hname : ∀ m ∈ ms, '"' ∉ m.1.toList)
    (hname' : ∀ m ∈ ms', '"' ∉ m.1.toList) (h : ms.map (member l) = ms'.map (member l)) : ms = ms' := by
  induction ms generalizing ms' with
  | nil => exact (List.map_eq_nil_iff.1 h.symm).symm
  | cons m ms ih =>
    cases ms' with
    | nil => cases h
    | cons m' ms' =>
      obtain ⟨hm, hms⟩ := List.cons.inj h
      obtain ⟨hm₁, hm₂⟩ := member_inj (s := []) (t := []) (hname m List.mem_cons_self)
        (hname' m' List.mem_cons_self) (by rw [hm])
      rw [List.append_cancel_right_eq] at hm₂
      rw [Prod.ext hm₁ hm₂, ih (List.forall_mem_cons.1 hname).2 (List.forall_mem_cons.1 hname').2 hms]

theorem object_append_inj {ms ms' : List (String × List Char)} (h : AreMembers l depth ms)
    (h' : AreMembers l depth ms') (hdelimited : ∀ m ∈ ms, IsDelimited (IsItem l (depth + 1)) m.2)
    (he : object l depth ms ++ s = object l depth ms' ++ t) : ms = ms' ∧ s = t := by
  have hmembers : ∀ x ∈ ms.map (member l), IsDelimited (IsMember l depth) x := by
    intro x hx
    obtain ⟨m, hm, rfl⟩ := List.mem_map.1 hx
    exact isDelimited_member (h.name m hm) (hdelimited m hm)
  obtain ⟨hmaps, hst⟩ := bracketed_inj (fun y hy => hy.opens) h.isMember hmembers h'.isMember (.inr rfl) he
  exact ⟨members_inj h.name h'.name hmaps, hst⟩

/-- An item can be told from any text that it stands in, together with what follows it. -/
theorem IsItem.isDelimited (h : IsItem l depth x) : IsDelimited (IsItem l depth) x := by
  -- items of different kinds differ in their first character; within a kind, tokens end where no character of
  -- one stands, and the brackets go by what they hold
  induction h with
  | token hne hs =>
    intro y s t hy hends hendt he
    cases hy with
    | token hne' hs' =>
      have hxy := congrArg (List.takeWhile isTokenChar) he
      rw [Text.takeWhile_of_ends hs hends, Text.takeWhile_of_ends hs' hendt] at hxy
      rw [hxy, List.append_cancel_left_eq] at he
      exact ⟨hxy, he⟩
    | array =>
      obtain ⟨r, hr⟩ := array_append l _ _ t
      exact absurd (he.trans hr) (token_append_ne hne hs (by decide))
    | object =>
      obtain ⟨r, hr⟩ := object_append l _ _ t
      exact absurd (he.trans hr) (token_append_ne hne hs (by decide))
  | array hitems ih =>
    intro y s t hy hends hendt he
    obtain ⟨r, hr⟩ := array_append l _ _ s
    cases hy with
    | token hne' hs' => exact absurd (he.symm.trans hr) (token_append_ne hne' hs' (by decide))
    | array hitems' =>
      obtain ⟨rfl, hst⟩ := bracketed_inj (fun y hy => hy.opens) hitems ih hitems' (.inl rfl) he
      exact ⟨rfl, hst⟩
    | object =>
      obtain ⟨r', hr'⟩ := object_append l _ _ t
      exact absurd (List.cons.inj (hr.symm.trans (he.trans hr'))).1 (by decide)
  | object hname hmembers ih =>
    intro y s t hy hends hendt he
    obtain ⟨r, hr⟩ := object_append l _ _ s
    cases hy with
    | token hne' hs' => exact absurd (he.symm.trans hr) (token_append_ne hne' hs' (by decide))
    | array =>
      obtain ⟨r', hr'⟩ := array_append l _ _ t
      exact absurd (List.cons.inj (hr.symm.trans (he.trans hr'))).1 (by decide)
    | object hname' hmembers' =>
      obtain ⟨rfl, hst⟩ := object_append_inj ⟨hname, hmembers⟩ ⟨hname', hmembers'⟩ ih he
      exact ⟨rfl, hst⟩

theorem array_inj (hxs : ∀ x ∈ xs, IsItem l (depth + 1) x) (hys : ∀ y ∈ ys, IsItem l (depth + 1) y) :
    array l depth xs = array l depth ys ↔ xs = ys := by
  refine ⟨fun h => ?_, fun h => h ▸ rfl⟩
  have he : array l depth xs ++ [] = array l depth ys ++ [] := by rw [h]
  exact (bracketed_inj (fun y hy => hy.opens) hxs (fun x hx => (hxs x hx).isDelimited) hys (.inl rfl) he).1

theorem object_inj {ms ms' : List (String × List Char)} (h : AreMembers l depth ms)
    (h' : AreMembers l depth ms') : object l depth ms = object l depth ms' ↔ ms = ms' := by
  refine ⟨fun hobject => ?_, fun hms => hms ▸ rfl⟩
  have he : object l depth ms ++ [] = object l depth ms' ++ [] := by rw [hobject]
  exact (object_append_inj h h' (fun m hm => (h.item m hm).isDelimited) he).1

end Campaign.Export
