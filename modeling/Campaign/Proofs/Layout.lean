import Mathlib
import Campaign.Proofs.Places
import Campaign.Schema.Definition

/-!
# The layout of tables that are opened

A database is opened on the table that its file holds if the columns of the table that are not computed have
the names of the standard ones, in their order, and on no other; the table stays in the file in either case
(`openDatabase_table_spec`). The types of the columns and the keys do not count, so a table may be opened
that lets a trial have two rows (`not_forall_isStandard`).
-/

namespace Campaign

/-- The columns have the names and types of those of a table that a store makes, in the same order, and the
key is the same. -/
structure Schema.IsStandard (s : Schema) : Prop where
  columns : s.columns.map (fun column => (column.name, column.affinity, column.computed))
    = standard.columns.map fun column => (column.name, column.affinity, column.computed)
  keys : s.keys.map UniqueKey.columns = standard.keys.map UniqueKey.columns

theorem Schema.IsStandard.columnNames_eq {s : Schema} (h : s.IsStandard) :
    s.columnNames = standard.columnNames := by
  have hnames (s : Schema) : s.columnNames =
      ((s.columns.map fun column => (column.name, column.affinity, column.computed)).filter
        fun column => column.2.2.isNone).map Prod.fst := by
    simp only [columnNames, List.filter_map, List.map_map]; rfl
  rw [hnames, h.columns, ← hnames]

namespace Schema

theorem columnNames_standard :
    standard.columnNames = ["traffic_interval", "receive_ratio", "unit_size", "data_size", "samples"] := rfl

theorem intercalate_columnNames_standard : ", ".intercalate standard.columnNames
    = "traffic_interval, receive_ratio, unit_size, data_size, samples" := by
  rw [columnNames_standard]; rfl

theorem message_layout (found : List String) : (Fault.database (.layout found standard.columnNames)).message
    = "database error: " ++ ("schema mismatch: trials has columns [" ++ ", ".intercalate found ++
      "], expected [" ++ "traffic_interval, receive_ratio, unit_size, data_size, samples" ++ "]") := by
  rw [← intercalate_columnNames_standard]; rfl

end Schema

namespace Files
variable {fs fs' : Files} {place : Location} {c : Companion} {workingDirectory : Location} {a : Address}
  {path : String} {t : Table} {form : Form} {d : Database}

/-- A file at a place holds a table. -/
def HoldsTable (fs : Files) (place : Location) (t : Table) : Prop :=
  ∃ form, fs.entry? place = some (.file (.table t form))

namespace HoldsTable

theorem of_entry?_eq (h : fs.HoldsTable place t) (he : fs'.entry? place = fs.entry? place) :
    fs'.HoldsTable place t :=
  h.imp fun _ h => he.trans h

theorem put (hp : place ≠ []) : (fs.put place (.file (.table t form))).HoldsTable place t :=
  ⟨form, entry?_put hp⟩

theorem leave (hp : place ≠ []) (h : fs.HoldsTable place t) : (fs.leave place c).HoldsTable place t := by
  refine h.of_entry?_eq ?_
  unfold Files.leave
  split_ifs
  · rfl
  · exact entry?_put_of_ne (c.place_ne hp).symm

theorem ite {p : Prop} [Decidable p] (h : fs.HoldsTable place t) (h' : fs'.HoldsTable place t) :
    (if p then fs else fs').HoldsTable place t := by
  split_ifs
  exacts [h, h']

theorem leaveCompanions (hp : place ≠ []) (h : fs.HoldsTable place t) :
    (fs.leaveCompanions a place).HoldsTable place t :=
  ((h.leave hp).leave hp).ite (h.leave hp)

end HoldsTable

/-- A path names a place: it is an address of it, and the directories on the way are there or can be made. -/
structure Names (fs : Files) (workingDirectory : Location) (path : String) (a : Address) (place : Location) :
    Prop where
  noEnd : (Path.ofText path).bytes.idxOf? 0 = none
  address : Address.ofBytes (Path.ofText path).bytes = .ok a
  stays : a.isPassing = false
  parent : (fs.makeParent workingDirectory (.ofText path)).1 = .ok ()
  place : (fs.makeParent workingDirectory (.ofText path)).2.databasePlace? workingDirectory a = some place

theorem openDatabase_of_names (h : fs.Names workingDirectory path a place) :
    fs.openDatabase workingDirectory path
      = (fs.makeParent workingDirectory (.ofText path)).2.openAt a path place := by
  have hparent := h.parent
  have hplace := h.place
  unfold openDatabase
  cases hm : fs.makeParent workingDirectory (.ofText path) with
  | mk made fs₁ =>
  rw [hm] at hparent hplace
  dsimp only at hparent hplace
  subst hparent
  simp only [openNamed, h.noEnd, h.address, h.stays, hplace, Bool.false_eq_true, ↓reduceIte]

theorem Grows.entry?_file (hg : fs.Grows fs') {content : Content} (h : fs.entry? place = some (.file content)) :
    fs'.entry? place = some (.file content) := by
  rcases hg place with he | ⟨hn, -⟩
  · exact he.trans h
  · rw [hn] at h
    cases h

theorem openAt_table (h : fs.entry? place = some (.file (.table t form))) :
    fs.openAt a path place = fs.resumeDatabase a place (.table t form) := by
  simp only [openAt, h, Content.isBlank, Bool.false_eq_true, ↓reduceIte]

/-- A table whose columns have the names that they should is opened as it is. -/
theorem resumeDatabase_of_columnNames_eq (hr : fs.readingFault? a place (.table t form) = none)
    (hn : t.schema.columnNames = Schema.standard.columnNames) :
    ∃ d, (fs.resumeDatabase a place (.table t form)).1 = .ok d := by
  have hopen : Table.open? (some (.table t form)) = .ok t := by
    rw [Table.open?, Schema.checkLayout, if_pos hn]; rfl
  simp only [resumeDatabase, hr, hopen]
  exact ⟨_, rfl⟩

theorem resumeDatabase_of_columnNames_ne (hr : fs.readingFault? a place (.table t form) = none)
    (hn : t.schema.columnNames ≠ Schema.standard.columnNames) :
    (fs.resumeDatabase a place (.table t form)).1
      = .error (.layout t.schema.columnNames Schema.standard.columnNames) := by
  have hopen : Table.open? (some (.table t form))
      = .error (.layout t.schema.columnNames Schema.standard.columnNames) := by
    rw [Table.open?, Schema.checkLayout, if_neg hn]; rfl
  simp only [resumeDatabase, hr, hopen]

/-- Opened or not, the table stays in its file. -/
theorem HoldsTable.resumeDatabase (hp : place ≠ []) (h : fs.HoldsTable place t) :
    (fs.resumeDatabase a place (.table t form)).2.HoldsTable place t := by
  have hclear {p : Prop} [Decidable p] : HoldsTable (if p then fs.clear place .journal else fs) place t :=
    .ite (h.of_entry?_eq (entry?_clear hp)) h
  unfold Files.resumeDatabase
  split
  · exact h
  split
  · exact .ite (hclear.of_entry?_eq (entry?_clearCompanions hp _)) hclear
  next table ht =>
    obtain ⟨_, -, rfl⟩ := map_eq_ok.1 ht
    exact .ite (.ite hclear (.put hp)) (.leaveCompanions hp (.ite hclear (.put hp)))

/-- A path that names the file of a table opens the database on that table if the columns have the names that
they should, and is refused because of its columns otherwise, unless the database cannot be read as it lies
there. The table and its rows stay as they were. -/
theorem openDatabase_table_spec (hn : fs.Names workingDirectory path a place)
    (ht : fs.entry? place = some (.file (.table t form))) :
    let made := (fs.makeParent workingDirectory (.ofText path)).2
    let opened := fs.openDatabase workingDirectory path
    Schema.standard.columnNames = ["traffic_interval", "receive_ratio", "unit_size", "data_size", "samples"] ∧
    ((∃ d, opened.1 = .ok d) ↔ made.readingFault? a place (.table t form) = none ∧
      t.schema.columnNames = Schema.standard.columnNames) ∧
    (∀ d, opened.1 = .ok d → d.place = some place ∧ d.store.table = t) ∧
    (made.readingFault? a place (.table t form) = none →
      t.schema.columnNames ≠ Schema.standard.columnNames →
      ∃ fault, opened.1 = .error fault ∧ (Fault.database fault).message
        = "database error: " ++ ("schema mismatch: trials has columns [" ++
          ", ".intercalate t.schema.columnNames ++ "], expected [" ++
          "traffic_interval, receive_ratio, unit_size, data_size, samples" ++ "]")) ∧
    (t.schema.IsStandard → t.schema.columnNames = Schema.standard.columnNames) ∧
    opened.2.HoldsTable place t := by
  intro made opened
  have hp : place ≠ [] := ne_nil_of_databasePlace? hn.place
  have hmade : made.entry? place = some (.file (.table t form)) := (grows_makeParent _).entry?_file ht
  have hopened : opened = made.resumeDatabase a place (.table t form) :=
    (openDatabase_of_names hn).trans (openAt_table hmade)
  rw [hopened]
  refine ⟨Schema.columnNames_standard, ⟨?_, fun ⟨hr, hnames⟩ => resumeDatabase_of_columnNames_eq hr hnames⟩,
    fun d hd => ?_, fun hr hnames => ?_, Schema.IsStandard.columnNames_eq, .resumeDatabase hp ⟨form, hmade⟩⟩
  · rintro ⟨d, hd⟩
    cases hr : made.readingFault? a place (.table t form) with
    | some fault =>
      simp only [resumeDatabase, hr] at hd
      cases hd
    | none =>
      refine ⟨rfl, by_contra fun hnames => ?_⟩
      cases hd.symm.trans (resumeDatabase_of_columnNames_ne hr hnames)
  · obtain ⟨hplace, -, ht⟩ := resumeDatabase_eq_ok (Prod.ext hd rfl)
    obtain ⟨_, -, ht⟩ := map_eq_ok.1 ht
    exact ⟨hplace, ht.symm⟩
  · exact ⟨_, resumeDatabase_of_columnNames_ne hr hnames, Schema.message_layout _⟩

/-! ### A file without others -/

/-- The place of the only file. -/
def single : Location := [Text.toUtf8 "trials.db"]

/-- The address of the only file. -/
def singleAddress : Address := { name := Text.toUtf8 "trials.db" }

theorem entry?_single (content : Content) :
    entry? ⟨[(single, .file content)]⟩ single = some (.file content) := by
  simp [ entry?, single]

theorem names_single (content : Content) :
    Names ⟨[(single, .file content)]⟩ [] "trials.db" singleAddress single where
  noEnd := by decide +kernel
  address := by decide +kernel
  stays := by decide +kernel
  parent := by cbv
  place := by cbv

theorem readingFault?_single (t : Table) : ((makeParent ⟨[(single, .file (.table t .staged))]⟩ []
    (.ofText "trials.db")).2.readingFault? singleAddress single (.table t .staged)) = none := by
  cbv

/-- A table of something else is refused, and its rows stay. -/
theorem openDatabase_table_other : ∃ schema,
    Schema.ofDefinitions? ["id INTEGER PRIMARY KEY", "payload TEXT"] = some schema ∧ ∀ rows,
      let opened := openDatabase ⟨[(single, .file (.table ⟨schema, rows⟩ .staged))]⟩ [] "trials.db"
      (¬∃ d, opened.1 = .ok d) ∧ opened.2.HoldsTable single ⟨schema, rows⟩ := by
  have hread : (Schema.ofDefinitions? ["id INTEGER PRIMARY KEY", "payload TEXT"]).map Schema.columnNames
      = some ["id", "payload"] := by decide +kernel
  obtain ⟨schema, hschema, hnames⟩ := Option.map_eq_some_iff.1 hread
  refine ⟨schema, hschema, fun rows => ?_⟩
  obtain ⟨hstandard, hopens, -, -, -, hstays⟩ :=
    openDatabase_table_spec (names_single (.table ⟨schema, rows⟩ .staged)) (entry?_single _)
  refine ⟨fun h => ?_, hstays⟩
  have hsame := (hopens.1 h).2
  rw [hstandard, hnames] at hsame
  simp at hsame

/-- A table of the five columns without a key is opened, with a trial in two rows. -/
theorem not_forall_isStandard : ¬∀ (fs : Files) (workingDirectory : Location) (path : String) (a : Address)
    (place : Location) (definitions : List String) (schema : Schema) (rows : List Row) (form : Form)
    (d : Database),
    fs.Names workingDirectory path a place → Schema.ofDefinitions? definitions = some schema →
    fs.entry? place = some (.file (.table ⟨schema, rows⟩ form)) →
    (fs.openDatabase workingDirectory path).1 = .ok d → schema.IsStandard := by
  intro h
  have hread : (Schema.ofDefinitions? ["traffic_interval INTEGER NOT NULL", "receive_ratio INTEGER NOT NULL",
      "unit_size INTEGER NOT NULL", "data_size INTEGER NOT NULL", "samples BLOB"]).map
        (fun schema => (schema.columnNames, schema.keys)) = some (Schema.standard.columnNames, []) := by
    decide +kernel
  obtain ⟨schema, hschema, hlayout⟩ := Option.map_eq_some_iff.1 hread
  obtain ⟨hnames, hkeys⟩ := Prod.mk.inj hlayout
  let row : Row := .ofIntegers ⟨1, 1, 1, 1⟩ .absent
  let t : Table := ⟨schema, [row, row]⟩
  have hplace := names_single (.table t .staged)
  have hopens : ∃ d, (openDatabase ⟨[(single, .file (.table t .staged))]⟩ [] "trials.db").1 = .ok d := by
    rw [openDatabase_of_names hplace, openAt_table ((grows_makeParent _).entry?_file (entry?_single _))]
    exact resumeDatabase_of_columnNames_eq (readingFault?_single t) hnames
  obtain ⟨d, hd⟩ := hopens
  have hstandard := h _ _ _ _ _ _ _ _ _ d hplace hschema (entry?_single _) hd
  have hcolumns := hstandard.keys
  rw [hkeys] at hcolumns
  cases hcolumns

end Files
end Campaign
