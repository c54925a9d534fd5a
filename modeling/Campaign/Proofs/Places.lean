import Mathlib
import Campaign.Files.Database
import Campaign.Proofs.Except

/-!
# What lies at the place of a database

Making directories leaves files as they are, and a database is never in the way of its companions. So an
open database has the table that its file had before, or a new one where there was no file
(`openDatabase_spec`), and a database that is closed leaves its table there (`entry?_closeDatabase`).
-/

namespace Campaign

namespace Companion

theorem place_ne (c : Companion) {place : Location} (h : place ≠ []) : c.place place ≠ place := by
  obtain ⟨init, last, rfl⟩ := (List.eq_nil_or_concat' place).resolve_left h
  intro he
  have hlast : last ++ Text.toUtf8 c.ending = last := by
    simpa [Companion.place] using he
  have hending : Text.toUtf8 c.ending ≠ [] := by cases c <;> decide +kernel
  exact hending (List.append_cancel_left (hlast.trans (List.append_nil _).symm))

end Companion

namespace Files
variable {fs fs' fs'' : Files} {place p : Location} {e : Entry} {c : Companion} {workingDirectory : Location}

theorem lookup_erase : (fs.erase place).entries.lookup p = if p = place then none else fs.entries.lookup p := by
  unfold erase
  induction fs.entries with
  | nil => simp
  | cons entry entries ih =>
    obtain ⟨q, e⟩ := entry
    by_cases hq : q = place
    · rw [List.filter_cons_of_neg (by simp [hq]), ih, List.lookup_cons]
      by_cases hp : p = place
      · simp [hp]
      · simp [hq, hp, beq_eq_false_iff_ne.2 hp]
    · rw [List.filter_cons_of_pos (by simp [hq]), List.lookup_cons, List.lookup_cons, ih]
      by_cases hp : p = q
      · simp [hp, hq]
      · simp [beq_eq_false_iff_ne.2 hp]

theorem entry?_erase_of_ne (h : p ≠ place) : entry? (fs.erase place) p = fs.entry? p := by
  simp only [ entry?, lookup_erase, if_neg h]

theorem entry?_put_of_ne (h : p ≠ place) : entry? (fs.put place e) p = fs.entry? p := by
  have hl : (fs.put place e).entries.lookup p = fs.entries.lookup p := by
    rw [put, List.lookup_append, lookup_erase, if_neg h, List.lookup_cons, beq_eq_false_iff_ne.2 h]
    simp
  simp only [ entry?, hl]

theorem entry?_put (h : place ≠ []) : entry? (fs.put place e) place = some e := by
  have hl : (fs.put place e).entries.lookup place = some e := by
    rw [put, List.lookup_append, lookup_erase, if_pos rfl, List.lookup_cons]
    simp
  rw [ entry?, hl, if_neg (by simpa using h)]

theorem entry?_clear (h : place ≠ []) : entry? (fs.clear place c) place = fs.entry? place := by
  unfold clear
  split_ifs
  · rfl
  · exact entry?_erase_of_ne (c.place_ne h).symm

theorem entry?_clearCompanions (h : place ≠ []) (system : System) :
    entry? (fs.clearCompanions system place) place = fs.entry? place := by
  cases system <;> simp only [clearCompanions, entry?_clear h]

/-! ### Making directories -/

/-- The files with more directories. -/
def Grows (fs fs' : Files) : Prop :=
  ∀ place, fs'.entry? place = fs.entry? place ∨ fs.entry? place = none ∧ fs'.entry? place = some .directory

namespace Grows

theorem refl (fs : Files) : fs.Grows fs := fun _ => .inl rfl

theorem trans (h : fs.Grows fs') (h' : fs'.Grows fs'') : fs.Grows fs'' := by
  intro place
  rcases h place with he | ⟨hn, hd⟩
  · rcases h' place with he' | ⟨hn', hd'⟩
    · exact .inl (he'.trans he)
    · exact .inr ⟨he ▸ hn', hd'⟩
  · rcases h' place with he' | ⟨hn', -⟩
    · exact .inr ⟨hn, he'.trans hd⟩
    · rw [hd] at hn'
      cases hn'

end Grows

/-- A directory is only made where nothing is. -/
theorem makeDirectory_eq_ok {path : Path} (h : fs.makeDirectory workingDirectory path = .ok fs') :
    ∃ q, fs.entry? q = none ∧ fs' = fs.put q .directory := by
  have hthrow {α : Type} (fault : FileFault) : (throw fault : Except FileFault α) = .error fault := rfl
  have hpure {α : Type} (a : α) : (pure a : Except FileFault α) = .ok a := rfl
  have herror {α β : Type} (fault : FileFault) (f : α → Except FileFault β) :
      (Except.error fault >>= f) = .error fault := rfl
  unfold makeDirectory at h
  cases hfault : path.fault? with
  | some fault => cases hname : path.names.getLast? <;> simp [hfault, hthrow, herror] at h
  | none =>
    simp only [hfault, hthrow, herror, hpure] at h
    cases hname : path.names.getLast? with
    | none =>
      simp only [hname] at h
      obtain ⟨_, -, h⟩ := bind_eq_ok.1 h
      cases h
    | some name =>
      simp only [hname] at h
      obtain ⟨place, -, h⟩ := bind_eq_ok.1 h
      split_ifs at h with h₁ h₂ h₃
      exact ⟨place ++ [name], Option.not_isSome_iff_eq_none.1 h₃, (Except.ok.inj h).symm⟩

theorem grows_of_makeDirectory {path : Path} (h : fs.makeDirectory workingDirectory path = .ok fs') :
    fs.Grows fs' := by
  obtain ⟨q, hq, rfl⟩ := makeDirectory_eq_ok h
  intro p
  by_cases hp : p = q
  · subst hp
    by_cases hnil : p = []
    · subst hnil
      exact .inl rfl
    · exact .inr ⟨hq, entry?_put hnil⟩
  · exact .inl (entry?_put_of_ne hp)

theorem grows_of_ensureDirectory {path : Path} (h : fs.ensureDirectory workingDirectory path = .ok fs') :
    fs.Grows fs' := by
  unfold ensureDirectory at h
  split at h
  next hm =>
    obtain rfl := Except.ok.inj h
    exact grows_of_makeDirectory hm
  · split_ifs at h
    obtain rfl := Except.ok.inj h
    exact .refl fs

theorem grows_makeEach (paths : List Path) : fs.Grows (fs.makeEach workingDirectory paths).2 := by
  induction paths generalizing fs with
  | nil => exact .refl fs
  | cons path above ih =>
    unfold makeEach
    split
    next h => exact grows_of_ensureDirectory h
    next =>
      have habove := @ih fs
      cases hm : fs.makeEach workingDirectory above with
      | mk done fs₁ =>
        rw [hm] at habove
        cases done with
        | error fault => exact habove
        | ok =>
          dsimp only
          split
          next h => exact habove.trans (grows_of_ensureDirectory h)
          · exact habove
    · exact .refl fs

theorem grows_makeParent (path : Path) : fs.Grows (fs.makeParent workingDirectory path).2 := by
  unfold makeParent
  split
  · exact .refl fs
  · exact grows_makeEach _

/-! ### Opening and closing a database -/

variable {a : Address} {path : String} {content : Content} {d : Database}

theorem beginDatabase_eq_ok (h : fs.beginDatabase a place = (.ok d, fs')) :
    d.place = some place ∧ d.store = .inMemory databaseCodec := by
  unfold beginDatabase at h
  split at h
  · cases h
  · dsimp only at h
    split_ifs at h
    · cases h
    · obtain rfl := Except.ok.inj (Prod.mk.inj h).1
      exact ⟨rfl, rfl⟩

theorem resumeDatabase_eq_ok (h : fs.resumeDatabase a place content = (.ok d, fs')) :
    d.place = some place ∧ d.store.codec = databaseCodec ∧ Table.open? (some content) = .ok d.store.table := by
  unfold resumeDatabase at h
  split at h
  · cases h
  · dsimp only at h
    split at h
    · cases h
    next table ht =>
      obtain rfl := Except.ok.inj (Prod.mk.inj h).1
      exact ⟨rfl, rfl, ht⟩

/-- What is open at a place is what its file holds. -/
theorem openAt_eq_ok (h : fs.openAt a path place = (.ok d, fs')) :
    d.place = some place ∧ d.store.codec = databaseCodec ∧
      (fs.entry? place = none ∧ d.store = .inMemory databaseCodec ∨
        ∃ content, fs.entry? place = some (.file content) ∧ Table.open? (some content) = .ok d.store.table) := by
  unfold openAt at h
  split at h
  next hn =>
    split_ifs at h
    · obtain ⟨hp, hs⟩ := beginDatabase_eq_ok h
      exact ⟨hp, by rw [hs]; rfl, .inl ⟨hn, hs⟩⟩
    · cases h
  next content hc =>
    split_ifs at h with hblank
    · obtain ⟨hp, hs⟩ := beginDatabase_eq_ok h
      refine ⟨hp, by rw [hs]; rfl, .inr ⟨content, hc, ?_⟩⟩
      cases content with
      | bytes bytes => simp only [hs, Table.open?, hblank, if_true]; rfl
      | table t form => cases hblank
    · obtain ⟨hp, hcodec, ht⟩ := resumeDatabase_eq_ok h
      exact ⟨hp, hcodec, .inr ⟨content, hc, ht⟩⟩
  · cases h

theorem ne_nil_of_databasePlace? (h : fs.databasePlace? workingDirectory a = some place) : place ≠ [] := by
  unfold databasePlace? at h
  dsimp only at h
  split_ifs at h with hbad
  obtain rfl := Option.some_inj.1 h
  rintro hnil
  simp [hnil] at hbad

/-- A database with a place has the table of the file there, or a new one where nothing was. -/
theorem openDatabase_spec (h : fs.openDatabase workingDirectory path = (.ok d, fs')) (hp : d.place = some place) :
    place ≠ [] ∧ d.store.codec = databaseCodec ∧
      (fs.entry? place = none → d.store = .inMemory databaseCodec) ∧
      ∀ t form, fs.entry? place = some (.file (.table t form)) → d.store.table = t := by
  unfold openDatabase at h
  have hgrows : fs.Grows (fs.makeParent workingDirectory (.ofText path)).2 := grows_makeParent _
  cases hm : fs.makeParent workingDirectory (.ofText path) with
  | mk made fs₁ =>
  rw [hm] at h hgrows
  cases made with
  | error fault => cases h
  | ok =>
  dsimp only at h hgrows
  unfold openNamed at h
  dsimp only at h
  split at h
  · cases h
  · cases h
  split_ifs at h
  · cases h
  · obtain rfl := Except.ok.inj (Prod.mk.inj h).1
    cases hp
  split at h
  · cases h
  next place' hplace =>
  obtain ⟨hp', hcodec, hfile⟩ := openAt_eq_ok h
  obtain rfl := Option.some_inj.1 (hp'.symm.trans hp)
  -- making the directories for the file has left what was there, and put no file anywhere
  refine ⟨ne_nil_of_databasePlace? hplace, hcodec, fun hn => ?_, fun t form ht => ?_⟩
  · rcases hfile with ⟨-, hs⟩ | ⟨content, hc, -⟩
    · exact hs
    · rcases hgrows place' with he | ⟨-, hd⟩
      · rw [hc, hn] at he; cases he
      · rw [hc] at hd; cases hd
  · rcases hgrows place' with he | ⟨hn, -⟩
    · rw [ht] at he
      rcases hfile with ⟨hn, -⟩ | ⟨content, hc, ho⟩
      · rw [hn] at he; cases he
      · obtain rfl : content = .table t form := by
          rw [he] at hc
          exact (Entry.file.inj (Option.some_inj.1 hc)).symm
        obtain ⟨_, -, ht⟩ := map_eq_ok.1 ho
        exact ht.symm
    · rw [ht] at hn; cases hn

/-- A database that may be written leaves its table when it is closed. -/
theorem entry?_closeDatabase (hp : d.place = some place) (hne : place ≠ []) (hw : d.store.isWritable = true) :
    entry? (fs.closeDatabase d) place = some (.file (.table d.store.table d.system.form)) := by
  rw [closeDatabase, hp]
  simp only [hw, if_true]
  rw [entry?_clearCompanions hne, entry?_put hne]

end Files
end Campaign
