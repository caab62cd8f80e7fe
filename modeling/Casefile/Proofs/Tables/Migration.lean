import Casefile.Proofs.Tables.WellFormed
import Casefile.Store.Relational

/-!
# Bringing a case database up to date

A database may come with anything: others may have dropped tables from it, put rows into those that are left,
and recorded any versions.

* `Tables.UpToDate` — the latest version of the schema, or a later one, is recorded.
* `Tables.restored` — the tables with those that are missing made, and the latest version recorded.
* `Tables.KeptIn` — every table of some is one of others, too, with all its rows.

Principal results: `version_lt_iff` — the largest version is behind exactly if none is recorded that is not.
`Db.migrate_of_upToDate`, `Db.migrate_of_behind` — so the row for the latest version is never there already when
it is to be recorded, and bringing a database up to date cannot fail.  `migrate_harmless` — it keeps all rows, adds
no more than that one, and does nothing when it is done again.
-/

set_option autoImplicit false

namespace Casefile

namespace Tables

/-- The latest version of the schema, or a later one, is recorded. -/
def UpToDate (t : Tables) : Prop :=
  ∃ rows, t.versions = some rows ∧ ∃ row ∈ rows, latestVersion ≤ row.version

/-- The tables with those that are missing made, and the latest version recorded behind the others. -/
def restored (now : Int) (t : Tables) : Tables :=
  { t.createMissing with
    versions := some (t.versions.getD [] ++ [⟨latestVersion, .int now⟩]) }

/-- A table that is there stays, with all its rows where they are. -/
def RowsKept {α : Type} (before after : Option (List α)) : Prop :=
  ∀ rows, before = some rows → ∃ more, after = some (rows ++ more)

/-- Every table of `t` is one of `t'`, too, with all its rows. -/
structure KeptIn (t t' : Tables) : Prop where
  objects : RowsKept t.objects t'.objects
  sourceInfo : RowsKept t.sourceInfo t'.sourceInfo
  files : RowsKept t.files t'.files
  filePaths : RowsKept t.filePaths t'.filePaths
  imageNames : RowsKept t.imageNames t'.imageNames
  versions : RowsKept t.versions t'.versions

variable {t : Tables} {now : Int}

/-- **The largest version is behind** exactly if none is recorded that is not. -/
theorem version_lt_iff : t.version < latestVersion ↔ ¬ t.UpToDate := by
  unfold version UpToDate
  cases hversions : t.versions with
  | none => simp [latestVersion]
  | some rows =>
    cases hmax : (rows.map (·.version)).max? with
    | none =>
      have hnil : rows = [] := by simpa [List.max?_eq_none_iff] using hmax
      simp [hnil, latestVersion]
    | some m =>
      obtain ⟨hmem, hle⟩ := List.max?_eq_some_iff.1 hmax
      obtain ⟨last, hlast, rfl⟩ := List.mem_map.1 hmem
      simp only [hmax, Option.getD_some]
      constructor
      · rintro hlt ⟨rows', hrows, row, hrow, hlatest⟩
        cases hrows
        have hmost : row.version ≤ last.version := hle _ (List.mem_map_of_mem hrow)
        omega
      · intro hbehind
        apply Int.not_le.1
        intro hlatest
        exact hbehind ⟨rows, rfl, last, hlast, hlatest⟩

/-- The row for the latest version finds its place behind those of earlier ones. -/
theorem installSchema_of_behind (h : ¬ t.UpToDate) (now : Int) :
    t.installSchema now = .ok (t.restored now) := by
  have hearlier : ∀ row ∈ t.versions.getD [], row.version < latestVersion := by
    intro row hrow
    cases hversions : t.versions with
    | none => simp [hversions] at hrow
    | some rows =>
      rw [hversions] at hrow
      apply Int.not_le.1
      intro hlatest
      exact h ⟨rows, hversions, row, hrow, hlatest⟩
  unfold installSchema
  rw [insertByKey_of_lt VersionRow.version _ _ hearlier]
  rfl

/-! ## What the restored tables hold -/

theorem restored_upToDate (now : Int) (t : Tables) : (t.restored now).UpToDate :=
  ⟨_, rfl, ⟨latestVersion, .int now⟩, by simp, Int.le_refl _⟩

theorem restored_complete (now : Int) (t : Tables) : (t.restored now).Complete :=
  ⟨rfl, rfl, rfl, rfl, rfl⟩

/-- No row is lost, and the tables that are made have none. -/
theorem restored_rows (now : Int) (t : Tables) : (t.restored now).rows = t.rows := rfl

theorem RowsKept.refl {α : Type} (rows? : Option (List α)) : RowsKept rows? rows? := by
  intro rows h
  exact ⟨[], by simpa using h⟩

/-- Rows that are put behind those of a table, which is made if it is missing. -/
theorem RowsKept.behind {α : Type} (rows? : Option (List α)) (more : List α) :
    RowsKept rows? (some (rows?.getD [] ++ more)) := by
  rintro rows rfl
  exact ⟨more, rfl⟩

theorem KeptIn.refl (t : Tables) : t.KeptIn t := by
  constructor <;> apply RowsKept.refl

theorem KeptIn.restored (now : Int) (t : Tables) : t.KeptIn (t.restored now) := by
  have hmade {α : Type} (rows? : Option (List α)) : RowsKept rows? (some (rows?.getD [])) := by
    simpa using RowsKept.behind rows? []
  constructor
  · exact hmade _
  · exact hmade _
  · exact hmade _
  · exact hmade _
  · exact hmade _
  · exact RowsKept.behind _ _

end Tables

namespace Db

variable {db : Db}

/-- A database that is up to date is left alone. -/
theorem migrate_of_upToDate (hopen : db.closed = false) (h : db.committed.UpToDate) (now : Int) :
    db.migrate now = .ok db := by
  have hversion : ¬ db.committed.version < Tables.latestVersion := by
    intro hbehind
    exact Tables.version_lt_iff.1 hbehind h
  simp [migrate, whileOpen, hopen, hversion]

/-- So are well-formed tables that are opened anew. -/
theorem migrate_of_wellFormed {t : Tables} (h : t.WellFormed) (now : Int) :
    (ofTables t).migrate now = .ok (ofTables t) := by
  apply migrate_of_upToDate rfl
  apply Classical.not_not.1
  intro hbehind
  have hversion : t.version < Tables.latestVersion := Tables.version_lt_iff.2 hbehind
  rw [h.version] at hversion
  exact absurd hversion (by decide)

/-- One that is behind is restored, as long as nobody is writing. -/
theorem migrate_of_behind (hopen : db.closed = false) (hfree : db.writing = false)
    (h : ¬ db.committed.UpToDate) (now : Int) :
    db.migrate now =
      .ok { db with committed := db.committed.restored now, version := db.version + 1 } := by
  have hversion : db.committed.version < Tables.latestVersion := Tables.version_lt_iff.2 h
  simp [migrate, whileOpen, hopen, hversion, hfree, Tables.installSchema_of_behind h]

/-- Once a database is up to date it stays as it is, however often it is brought up to date. -/
theorem migrate_again (hopen : db.closed = false) (h : db.committed.UpToDate) (later : List Int) :
    later.foldlM (fun db now => db.migrate now) db = .ok db := by
  induction later with
  | nil => rfl
  | cons now later ih =>
    rw [List.foldlM_cons, migrate_of_upToDate hopen h now]
    exact ih

end Db

/-- **Bringing a database up to date succeeds, harms nothing, and need not be done twice**: whatever tables there
are, whatever rows they hold and whatever versions are recorded, every row stays where it is.  If a version is
recorded that is not behind, nothing changes at all; otherwise all tables are there afterwards, and the only
new row is the one that records version 1.  Doing it again, any number of times, changes nothing more. -/
theorem migrate_harmless (now : Int) (db : Db) (hopen : db.closed = false)
    (hfree : db.writing = false) :
    ∃ db', db.migrate now = .ok db' ∧
      db.committed.KeptIn db'.committed ∧
      (db.committed.UpToDate → db' = db) ∧
      (¬ db.committed.UpToDate →
        db'.committed.Complete ∧ db'.committed.rows = db.committed.rows ∧
          db'.committed.versions =
            some (db.committed.versions.getD [] ++ [⟨1, .int now⟩])) ∧
      ∀ later : List Int, later.foldlM (fun db now => db.migrate now) db' = .ok db' := by
  by_cases h : db.committed.UpToDate
  · refine ⟨db, Db.migrate_of_upToDate hopen h now, .refl _, fun _ => rfl, ?_,
      Db.migrate_again hopen h⟩
    intro hbehind
    exact absurd h hbehind
  · refine ⟨_, Db.migrate_of_behind hopen hfree h now, .restored now _, ?_, ?_, ?_⟩
    · intro hlatest
      exact absurd hlatest h
    · intro _
      exact ⟨Tables.restored_complete now _, Tables.restored_rows now _, rfl⟩
    · exact Db.migrate_again hopen (Tables.restored_upToDate now _)

/-- Tables that others have been at: of the six only two are left, and the versions recorded are none that there
ever was. -/
def ransacked : Tables :=
  { Tables.bare with
    objects := some [⟨7, .int 3, .text "?"⟩]
    versions := some [⟨-3, .int 5⟩, ⟨0, .text "long ago"⟩] }

theorem migrate_harmless_ransacked :
    ∃ db', (Db.ofTables ransacked).migrate 9 = .ok db' ∧
      db'.committed.objects = ransacked.objects ∧ db'.committed.files = some [] ∧
      db'.committed.versions = some [⟨-3, .int 5⟩, ⟨0, .text "long ago"⟩, ⟨1, .int 9⟩] ∧
      [10, 11, 12].foldlM (fun db now => Db.migrate now db) db' = .ok db' := by
  have hbehind : ¬ ransacked.UpToDate := by
    rw [← Tables.version_lt_iff]
    decide
  obtain ⟨db', hmigrate, hkept, _, hmissing, hagain⟩ :=
    migrate_harmless 9 (Db.ofTables ransacked) rfl rfl
  obtain ⟨hcomplete, hrows, hversions⟩ := hmissing hbehind
  refine ⟨db', hmigrate, ?_, ?_, hversions, hagain _⟩
  · rw [hcomplete.objects, hrows]
    rfl
  · rw [hcomplete.files, hrows]
    rfl

/-- A database of a later time is left alone, even if a table is missing. -/
example :
    (Db.ofTables { ransacked with versions := some [⟨2, .int 5⟩] }).migrate 9 =
      .ok (Db.ofTables { ransacked with versions := some [⟨2, .int 5⟩] }) := by rfl

end Casefile
