import Casefile.Proofs.Ingest.Announcements
import Casefile.Proofs.Scan.Walk
import Mathlib

/-!
# Taking in what is found in a tree

* `ScansWith` — the scans of the roots of a run in a tree, by a way to walk through it.

Principal result: `run_takes_in_tree` — what is found in a tree can always be taken in: an undisturbed run
whose roots can be scanned commits, whatever the tree and whatever the walk could not read in it, and adds one
file for the source and one for each entry.
-/

set_option autoImplicit false

namespace Casefile

/-- The scans of some roots in a tree, by a way to walk through it. -/
def FileTree.ScansWith (walk : FileTree → Path → List Finding) (t : FileTree) (roots : List Path)
    (scans : List Scan) : Prop :=
  roots.map (t.scanWith walk) = scans.map .ok

variable {walk : FileTree → Path → List Finding} {t : FileTree}

/-- A tree that stays as it is answers every request in the same way. -/
theorem FileTree.ScansWith.scanned :
    ∀ {roots : List Path} {scans : List Scan} (n : Nat), t.ScansWith walk roots scans →
      Scanned (.ofTreeWith walk t) n roots scans
  | [], [], _, _ => rfl
  | [], _ :: _, _, h => by cases h
  | _ :: _, [], _, h => by cases h
  | root :: roots, scan :: scans, n, h => by
    obtain ⟨hscan, hrest⟩ := List.cons.inj h
    refine ⟨scan, scans, rfl, ?_, FileTree.ScansWith.scanned (n + 1) hrest⟩
    unfold Scanner.ofTreeWith
    rw [hscan]
    rfl

/-- Each of the scans is that of a root. -/
theorem FileTree.ScansWith.exists_root {roots : List Path} {scans : List Scan}
    (h : t.ScansWith walk roots scans) {scan : Scan} (hmem : scan ∈ scans) :
    ∃ root ∈ roots, t.scanWith walk root = .ok scan := by
  have hok : Except.ok scan ∈ roots.map (t.scanWith walk) := by
    rw [show roots.map (t.scanWith walk) = _ from h]
    exact List.mem_map_of_mem hmem
  exact List.mem_map.1 hok

theorem FileTree.ScansWith.admissible {roots : List Path} {scans : List Scan}
    (h : t.ScansWith walk roots scans) (hfit : ∀ root ∈ roots, ∀ f ∈ walk t root, f.SizeFits) :
    ∀ scan ∈ scans, scan.Admissible := by
  intro scan hmem
  obtain ⟨root, hroot, hscan⟩ := h.exists_root hmem
  exact FileTree.scan_admissible (hfit root hroot) hscan

/-! ## The number of files -/

theorem Rows.concat_files_length {rs : List Rows} (h : ∀ r ∈ rs, r.files.length = 1) :
    (Rows.concat rs).files.length = rs.length := by
  induction rs with
  | nil => rfl
  | cons r rs ih =>
    obtain ⟨hr, hrs⟩ := List.forall_mem_cons.1 h
    rw [Rows.concat_cons, Rows.append_files, List.length_append, hr, ih hrs, List.length_cons]
    omega

theorem mirrorScan_files {source first : ObjectId} {root : String} {entries : List Entry} {r : Rows}
    (h : r ∈ mirrorScan source root first entries) : r.files.length = 1 := by
  obtain ⟨k, hk, rfl⟩ := List.mem_mapIdx.1 h
  rfl

theorem mirrorScans_files {source : ObjectId} {root : String} {r : Rows} :
    ∀ (scans : List Scan) (first : ObjectId), r ∈ mirrorScans source root first scans →
      r.files.length = 1
  | [], _, h => by cases h
  | scan :: scans, first, h => by
    rcases List.mem_append.1 h with h | h
    · exact mirrorScan_files h
    · exact mirrorScans_files scans _ h

theorem mirrorScans_length (source : ObjectId) (root : String) :
    ∀ (scans : List Scan) (first : ObjectId),
      (mirrorScans source root first scans).length = (scans.flatMap (·.entries)).length
  | [], _ => rfl
  | scan :: scans, first => by
    simp only [mirrorScans, List.length_append, mirrorScan_length, List.flatMap_cons,
      mirrorScans_length source root scans]

/-- A run adds one file for the source and one for each entry. -/
theorem newRows_files (r : Rows) (clock : Clock) (config : SourceConfig) (scans : List Scan) :
    (Rows.concat (newRows r clock config scans)).files.length =
      1 + (scans.flatMap (·.entries)).length := by
  have hone : ∀ x ∈ newRows r clock config scans, x.files.length = 1 := by
    intro x hx
    rcases List.mem_cons.1 hx with rfl | hx
    · rfl
    · exact mirrorScans_files scans _ hx
  rw [Rows.concat_files_length hone, newRows, List.length_cons, mirrorScans_length]
  omega

/-! ## The run -/

/-- The verdict tells whether everything could be read. -/
theorem added_noErrors_iff (content : Content) (scans : List Scan) :
    (Report.added content (scans.flatMap (·.errors))).verdict = .noErrors ↔
      ∀ scan ∈ scans, scan.errors = [] := by
  unfold Report.added
  rw [← List.flatMap_eq_nil_iff]
  split
  · rename_i hnil
    simp [hnil]
  · rename_i herrors
    simp [herrors]

/-- **What is found in a tree can always be taken in**: on a case database with any history that nobody else
is writing to, a run that is neither stopped nor disturbed commits if all its roots can be scanned —
whatever the tree, whatever a walk through it comes upon and cannot read, and if roots overlap or are links.
Its report holds the new source and the errors of the scans, and it adds one file for the source and one for
each entry.  No object that could be looked at may be longer than a row can say. -/
theorem run_takes_in_tree (now : Int) (events : List Event) (walk : FileTree → Path → List Finding)
    (t : FileTree) (clock : Clock) (config : SourceConfig) (scans : List Scan)
    (hfree : (history now events).db.writing = false)
    (hfit : ∀ root ∈ config.paths, ∀ f ∈ walk t root, f.SizeFits)
    (hscans : t.ScansWith walk config.paths scans) :
    let db := (history now events).db
    let outcome := Ingest.run Relational.store (.ofTreeWith walk t) .quiet clock (.ok ()) config db
    outcome.db.version = db.version + 1 ∧
      outcome.report =
        .added (newContent db.committed.rows config) (scans.flatMap (·.errors)) ∧
      (outcome.report.verdict = .noErrors ↔ ∀ scan ∈ scans, scan.errors = []) ∧
      outcome.db.committed.rows.files.length =
        db.committed.rows.files.length + 1 + (scans.flatMap (·.entries)).length := by
  intro db outcome
  have hi : (history now events).Inv := history_inv now events
  have hall : ∀ scan ∈ scans, scan.Admissible := hscans.admissible hfit
  obtain ⟨p, hscan⟩ := scanAll_quiet config.paths (Progress.none.showIndeterminate true)
    (hscans.scanned 0)
  obtain ⟨p', hrun⟩ : ∃ p', Ingest.record Relational.store .quiet clock config scans p db = _ := by
    rcases record_cases hi hfree clock config scans p with ⟨_, hrun⟩ | ⟨hnot, _⟩
    · exact hrun
    · exact absurd hall hnot
  have hwork : Ingest.work Relational.store (.ofTreeWith walk t) .quiet clock (.ok ()) config .none db =
      Ingest.record Relational.store .quiet clock config scans p db := by
    rw [Ingest.work_eq rfl, hscan]
    rfl
  have hreport : outcome.report =
      .added (newContent db.committed.rows config) (scans.flatMap (·.errors)) := by
    show Ingest.finalReport (Ingest.work _ _ _ _ _ _ _ _).ending = _
    rw [hwork, hrun]
    rfl
  have hdb : outcome.db =
      db.committing (db.committed.plus (.concat (newRows db.committed.rows clock config scans))) := by
    show (Ingest.work _ _ _ _ _ _ _ _).db = _
    rw [hwork, hrun]
  refine ⟨?_, hreport, ?_, ?_⟩
  · rw [hdb]
    rfl
  · rw [hreport]
    exact added_noErrors_iff _ scans
  · rw [hdb]
    show (db.committed.plus _).rows.files.length = _
    rw [Tables.rows_plus hi.committed.complete, Rows.append_files, List.length_append, newRows_files]
    exact (Nat.add_assoc _ _ _).symm

/-- A name of a file system. -/
def nodeName (s : String) : Name :=
  (Path.ofString s).bytes

/-- A directory with a link that leads nowhere, a file and an empty directory, and beside it a link to it. -/
def linkedTree : FileTree where
  root := .dir [] 0
    [.dir (nodeName "in") 5
        [.link (nodeName "a") (nodeName "gone") 7, .file (nodeName "c") 3 5, .dir (nodeName "b") 5 []],
      .link (nodeName "l") (nodeName "in") 7]
  cwd := []

/-- A walk that may not list the directories of the name `b`. It comes upon them, and then upon the refusal. -/
def guardedWalk (t : FileTree) (root : Path) : List Finding :=
  (t.walk root).flatMap fun
    | .object p depth (.ok (.dir m)) =>
      if p.fileName? = some (nodeName "b") then
        [.object p depth (.ok (.dir m)), .fault (some p) (.os ⟨13⟩)]
      else [.object p depth (.ok (.dir m))]
    | f => [f]

/-- The scan of a root that can be scanned, by that walk. -/
def guardedScan (root : Path) : Scan :=
  match linkedTree.scanWith guardedWalk root with
  | .ok scan => scan
  | .error _ => .empty

theorem linkedTree_sizesFit : linkedTree.SizesFit := by
  simp only [FileTree.SizesFit, linkedTree, Node.SizesFit, Node.SizesFitEach, and_true]
  decide

/-- That walk comes upon no object that the other one does not come upon. -/
theorem guardedWalk_fits {t : FileTree} (h : t.SizesFit) (root : Path) :
    ∀ f ∈ guardedWalk t root, f.SizeFits := by
  intro f hf
  obtain ⟨g, hg, hmem⟩ := List.mem_flatMap.1 hf
  have hfits := FileTree.walk_fits h root g hg
  have hfault : ∀ path? e, (Finding.fault path? e).SizeFits := fun _ _ _ _ _ heq => by cases heq
  split at hmem
  · split at hmem
    · rcases List.mem_cons.1 hmem with rfl | hmem
      · exact hfits
      · rw [List.mem_singleton.1 hmem]
        exact hfault _ _
    · rw [List.mem_singleton.1 hmem]
      exact hfits
  · rw [List.mem_singleton.1 hmem]
    exact hfits

theorem run_takes_in_tree_linked :
    let config : SourceConfig := ⟨⟨"dev"⟩, " ", [.ofString "in", .ofString "l", .ofString "./in/"]⟩
    let db := (history 0 (eventful ++ [.call (.drop "c")])).db
    let outcome := Ingest.run Relational.store (.ofTreeWith guardedWalk linkedTree) .quiet (.universal 7)
      (.ok ()) config db
    outcome.report.verdict = .nonCriticalErrors ∧
      "in/b: IO error for operation on in/b: Permission denied (os error 13)" ∈ outcome.report.errors ∧
      outcome.db.committed.rows.files.length = db.committed.rows.files.length + 1 + 9 := by
  intro config db outcome
  have hscans : linkedTree.ScansWith guardedWalk config.paths (config.paths.map guardedScan) := by
    unfold FileTree.ScansWith
    cbv
  obtain ⟨_, hreport, _, hfiles⟩ := run_takes_in_tree 0 (eventful ++ [.call (.drop "c")]) guardedWalk linkedTree
    (.universal 7) config (config.paths.map guardedScan) rfl
    (fun root _ => guardedWalk_fits linkedTree_sizesFit root) hscans
  have herrors : (config.paths.map guardedScan).flatMap (·.errors) =
      ["in/b: IO error for operation on in/b: Permission denied (os error 13)",
        "l/a: parent directory was skipped", "l/b: parent directory was skipped",
        "l/b: IO error for operation on l/b: Permission denied (os error 13)",
        "l/c: parent directory was skipped",
        "./in/b: IO error for operation on ./in/b: Permission denied (os error 13)"] := by cbv
  rw [herrors] at hreport
  refine ⟨?_, ?_, ?_⟩
  · rw [show outcome.report = _ from hreport]
    rfl
  · rw [show outcome.report = _ from hreport]
    exact List.mem_cons_self
  · have hfound : ((config.paths.map guardedScan).flatMap (·.entries)).length = 9 := by cbv
    rw [← hfound]
    exact hfiles

end Casefile
