import Mathlib
import Campaign.Command
import Campaign.Proofs.Places

/-!
# The entries of directories

Each place has one entry at most, and every run of the program keeps it so (`distinct_run`). The entries of a
directory are then what lies one step below it (`mem_children_iff`), each once, and two file systems that agree
on every place list the same entries in some order (`exists_list_perm`).
-/

namespace Campaign

/-- In a list that has each key once, a lookup finds what stands there. -/
theorem lookup_eq_some {α β : Type} [BEq α] [LawfulBEq α] {l : List (α × β)} {a : α} {b : β}
    (h : (l.map Prod.fst).Nodup) : l.lookup a = some b ↔ (a, b) ∈ l := by
  rw [List.lookup_eq_some_iff]
  constructor
  · rintro ⟨before, behind, hs, -⟩
    rw [hs]
    simp
  · intro hm
    obtain ⟨before, behind, hs⟩ := List.append_of_mem hm
    refine ⟨before, behind, hs, fun entry hentry => bne_iff_ne.2 fun hp => ?_⟩
    rw [hs, List.map_append, List.nodup_append] at h
    exact h.2.2 _ (List.mem_map_of_mem hentry) a (by simp) hp.symm

namespace Files
variable {fs fs' : Files} {place p : Location} {name : FileName} {e : Entry} {entries : List (FileName × Entry)}
  {workingDirectory : Location} {path : Path} {a : Address} {content : Content}

/-- Each place has one entry at most. -/
def Distinct (fs : Files) : Prop :=
  (fs.entries.map Prod.fst).Nodup

namespace Distinct

theorem erase (h : fs.Distinct) (place : Location) : (fs.erase place).Distinct :=
  h.sublist (List.filter_sublist.map _)

theorem put (h : fs.Distinct) (place : Location) (e : Entry) : (fs.put place e).Distinct := by
  unfold Distinct Files.put
  rw [List.map_append, List.map_singleton, List.nodup_append_comm, List.singleton_append, List.nodup_cons]
  refine ⟨fun hm => ?_, h.erase place⟩
  obtain ⟨entry, hm, hp⟩ := List.mem_map.1 hm
  exact absurd hp (of_decide_eq_true (List.mem_filter.1 hm).2)

theorem ite {c : Prop} [Decidable c] (h : fs.Distinct) (h' : fs'.Distinct) :
    (if c then fs else fs').Distinct := by
  split_ifs
  exacts [h, h']

/-! ### Companions -/

theorem clear (h : fs.Distinct) (c : Companion) : (fs.clear place c).Distinct :=
  h.ite (h.erase _)

theorem clearFilled (h : fs.Distinct) (c : Companion) : (fs.clearFilled place c).Distinct :=
  (h.clear c).ite h

theorem leave (h : fs.Distinct) (c : Companion) : (fs.leave place c).Distinct :=
  h.ite (h.put _ _)

theorem leaveCompanions (h : fs.Distinct) : (fs.leaveCompanions a place).Distinct :=
  ((h.leave _).leave _).ite (h.leave _)

theorem clearCompanions (h : fs.Distinct) (system : System) : (fs.clearCompanions system place).Distinct := by
  cases system with
  | unshared => exact h
  | usual => exact (h.clear _).clear _
  | exclusive | memory => exact h.clear _

/-! ### Making and removing -/

theorem makeDirectory (h : fs.Distinct) (hm : fs.makeDirectory workingDirectory path = .ok fs') :
    fs'.Distinct := by
  obtain ⟨q, -, rfl⟩ := makeDirectory_eq_ok hm
  exact h.put q _

theorem ensureDirectory (h : fs.Distinct) (hm : fs.ensureDirectory workingDirectory path = .ok fs') :
    fs'.Distinct := by
  unfold Files.ensureDirectory at hm
  split at hm
  next hmade =>
    obtain rfl := Except.ok.inj hm
    exact h.makeDirectory hmade
  · split_ifs at hm
    obtain rfl := Except.ok.inj hm
    exact h

theorem makeEach (h : fs.Distinct) (paths : List Path) : (fs.makeEach workingDirectory paths).2.Distinct := by
  induction paths generalizing fs with
  | nil => exact h
  | cons path above ih =>
    unfold Files.makeEach
    split
    next hm => exact h.ensureDirectory hm
    next =>
      have habove := ih h
      cases hm : fs.makeEach workingDirectory above with
      | mk done fs₁ =>
        rw [hm] at habove
        cases done with
        | error fault => exact habove
        | ok =>
          dsimp only
          split
          next hm => exact habove.ensureDirectory hm
          · exact habove
    · exact h

theorem makeParent (h : fs.Distinct) (path : Path) : (fs.makeParent workingDirectory path).2.Distinct := by
  unfold Files.makeParent
  split
  · exact h
  · exact h.makeEach _

theorem remove (h : fs.Distinct) (hr : fs.remove workingDirectory path = .ok fs') : fs'.Distinct := by
  obtain ⟨place, -, hr⟩ := bind_eq_ok.1 hr
  split at hr
  · split_ifs at hr
    obtain rfl := Except.ok.inj hr
    exact h.erase _
  · cases hr

theorem removeEach (h : fs.Distinct) (paths : List Path) :
    (fs.removeEach workingDirectory paths).2.Distinct := by
  induction paths generalizing fs with
  | nil => exact h
  | cons path paths ih =>
    unfold Files.removeEach
    split
    next hr => exact ih (h.remove hr)
    · exact ih h
    · exact h

/-! ### Databases -/

theorem beginDatabase (h : fs.Distinct) : (fs.beginDatabase a place).2.Distinct := by
  unfold Files.beginDatabase
  split
  · exact h.ite ((h.clearFilled _).clearFilled _)
  · dsimp only
    have hcleared : ((fs.clear place .journal).clearFilled place .changes).Distinct :=
      (h.clear _).clearFilled _
    split_ifs
    · exact hcleared.leaveCompanions
    · exact hcleared.put _ _

theorem resumeDatabase (h : fs.Distinct) : (fs.resumeDatabase a place content).2.Distinct := by
  unfold Files.resumeDatabase
  split
  · exact h
  have hcleared {c : Prop} [Decidable c] : (if c then fs.clear place .journal else fs).Distinct :=
    (h.clear _).ite h
  split
  · exact .ite (hcleared.clearCompanions _) hcleared
  · exact .ite (.ite hcleared (hcleared.put _ _)) (.leaveCompanions (.ite hcleared (hcleared.put _ _)))

theorem openAt (h : fs.Distinct) (path : String) (place : Location) : (fs.openAt a path place).2.Distinct := by
  unfold Files.openAt
  split
  · split_ifs
    · exact (h.put _ _).beginDatabase
    · exact h
  · split_ifs
    · exact h.beginDatabase
    · exact h.resumeDatabase
  · exact h

theorem openNamed (h : fs.Distinct) (path : String) : (fs.openNamed workingDirectory path).2.Distinct := by
  unfold Files.openNamed
  dsimp only
  split
  · exact h
  · exact h
  · split_ifs
    · exact h
    · exact h
    · split
      · exact h
      · exact h.openAt _ _

theorem openDatabase (h : fs.Distinct) (path : String) :
    (fs.openDatabase workingDirectory path).2.Distinct := by
  have hparent : (fs.makeParent workingDirectory (.ofText path)).2.Distinct := h.makeParent _
  unfold Files.openDatabase
  split
  next hm =>
    rw [hm] at hparent
    exact hparent
  next hm =>
    rw [hm] at hparent
    exact hparent.openNamed _

theorem closeDatabase (h : fs.Distinct) (d : Database) : (fs.closeDatabase d).Distinct := by
  unfold Files.closeDatabase
  split
  · exact h
  · exact ((h.put _ _).clearCompanions _).ite h

theorem removeDatabase (h : fs.Distinct) (path : String) :
    (fs.removeDatabase workingDirectory path).2.Distinct :=
  h.removeEach _

end Distinct

/-! ### Listing a directory -/

theorem mem_children : (name, e) ∈ fs.children place ↔ (place ++ [name], e) ∈ fs.entries := by
  rw [children, List.mem_filterMap]
  constructor
  · rintro ⟨⟨q, e'⟩, hm, hq⟩
    dsimp only at hq
    split_ifs at hq with hplace
    obtain ⟨name', hlast, he⟩ := Option.map_eq_some_iff.1 hq
    obtain ⟨rfl, rfl⟩ := Prod.mk.inj he
    obtain ⟨init, rfl⟩ := List.getLast?_eq_some_iff.1 hlast
    rw [List.dropLast_concat] at hplace
    rwa [← hplace]
  · intro hm
    exact ⟨_, hm, by simp⟩

theorem mem_children_iff (h : fs.Distinct) :
    (name, e) ∈ fs.children place ↔ fs.entry? (place ++ [name]) = some e := by
  rw [mem_children, entry?, if_neg (by simp), lookup_eq_some h]

theorem nodup_children (h : fs.Distinct) : ((fs.children place).map Prod.fst).Nodup := by
  have hentries : fs.entries.Pairwise fun a b => a.1 ≠ b.1 := List.pairwise_map.1 h
  refine List.pairwise_map.2 (hentries.filterMap _ fun a b hab c hc d hd hcd => hab ?_)
  dsimp only at hc hd
  split_ifs at hc hd with ha hb
  obtain ⟨name, hname, rfl⟩ := Option.map_eq_some_iff.1 hc
  obtain ⟨name', hname', rfl⟩ := Option.map_eq_some_iff.1 hd
  obtain rfl : name = name' := hcd
  obtain ⟨init, hinit⟩ := List.getLast?_eq_some_iff.1 hname
  obtain ⟨init', hinit'⟩ := List.getLast?_eq_some_iff.1 hname'
  rw [hinit, List.dropLast_concat] at ha
  rw [hinit', List.dropLast_concat] at hb
  rw [hinit, hinit', ha, hb]

theorem list_eq_ok : fs.list workingDirectory path = .ok entries ↔ ∃ place,
    fs.locate workingDirectory path = .ok place ∧ fs.entry? place = some .directory ∧
      entries = fs.children place := by
  rw [list, bind_eq_ok]
  refine exists_congr fun place => and_congr_right fun _ => ?_
  cases hentry : fs.entry? place with
  | none => simp [throw, throwThe, MonadExceptOf.throw]
  | some entry =>
    cases entry with
    | directory => simp [pure, Except.pure, eq_comm]
    | file | unreadable | unlisted => simp [throw, throwThe, MonadExceptOf.throw]

theorem nodup_list (h : fs.Distinct) (hl : fs.list workingDirectory path = .ok entries) :
    (entries.map Prod.fst).Nodup := by
  obtain ⟨place, -, -, rfl⟩ := list_eq_ok.1 hl
  exact nodup_children h

theorem follow_congr (h : ∀ p, fs'.entry? p = fs.entry? p) (place : Location) (steps : List FileName) :
    fs'.follow place steps = fs.follow place steps := by
  induction steps generalizing place with
  | nil => rfl
  | cons step steps ih => simp only [follow, h, ih]

theorem locate_congr (h : ∀ p, fs'.entry? p = fs.entry? p) :
    fs'.locate workingDirectory path = fs.locate workingDirectory path := by
  simp only [locate, follow_congr h]

/-- Files that have the same entries list the same, in some order. -/
theorem exists_list_perm (hd : fs.Distinct) (hd' : fs'.Distinct) (h : ∀ p, fs'.entry? p = fs.entry? p)
    (hl : fs.list workingDirectory path = .ok entries) :
    ∃ entries', fs'.list workingDirectory path = .ok entries' ∧ entries'.Perm entries := by
  obtain ⟨place, hlocate, hentry, rfl⟩ := list_eq_ok.1 hl
  refine ⟨fs'.children place, list_eq_ok.2 ⟨place, (locate_congr h).trans hlocate, (h place).trans hentry, rfl⟩, ?_⟩
  refine (List.perm_ext_iff_of_nodup (nodup_children hd').of_map (nodup_children hd).of_map).2 fun ⟨name, e⟩ => ?_
  rw [mem_children_iff hd', mem_children_iff hd, h]

end Files

namespace Command
variable {e : Environment} {fs : Files}

theorem distinct_remove (h : fs.Distinct) (path : String) : (remove e fs path).2.Distinct := by
  have hremoved : (fs.removeDatabase e.workingDirectory path).2.Distinct := h.removeDatabase path
  unfold remove
  split
  all_goals
    next hr =>
      rw [hr] at hremoved
      exact hremoved

theorem distinct_session (h : fs.Distinct) (settings : Settings) (path : String) (task : Task) :
    (session e fs settings path task).2.Distinct := by
  have hopened : (fs.openDatabase e.workingDirectory path).2.Distinct := h.openDatabase path
  unfold session
  split
  next hopen =>
    rw [hopen] at hopened
    exact hopened
  next hopen =>
    rw [hopen] at hopened
    exact hopened.closeDatabase _

/-- A run leaves one entry at most at each place. -/
theorem distinct_run (h : fs.Distinct) (arguments : List String) : (run e fs arguments).2.Distinct := by
  unfold run
  split
  · exact h
  · exact h
  split
  · exact h
  next option action _ _ settings _ =>
    cases action with
    | config => exact h
    | remove =>
      dsimp only
      exact distinct_remove h _
    | «open» task =>
      dsimp only
      exact distinct_session h _ _ _

end Command
end Campaign
