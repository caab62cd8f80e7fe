import Casefile.Cli.Invocation
import Casefile.Proofs.Processor
import Mathlib

/-!
# The two ways to add local files

* `Request.adding` — a request to add local files, under a device id that is given or under a new one.

Principal results: `addByPanel_eq` — the way by the panel does what the way by a given device id does with
the usable paths; `addByPanel_blank` — without any it does nothing.  `adding_ways_agree` — so requests for
the one and for the other do the same to a machine if the panel leaves their paths as they are.
-/

set_option autoImplicit false

namespace Casefile.Cli

/-- A request to add local files. -/
def Request.adding (caseDir? : Option String) (json : Bool) (name : String) (paths : List Path)
    (device? : Option String) : Request :=
  ⟨caseDir?, json, .addLocalFiles name device? paths⟩

/-- A configuration is made of any paths at all. -/
theorem create_eq (device : DeviceId) (rootName : String) {paths : List Path} (hne : paths ≠ []) :
    SourceConfig.create device rootName paths = .ok ⟨device, rootName, paths⟩ :=
  if_neg hne

section Workbench

variable (s : Surroundings Db Tx) (name : String) (paths : List Path) {w : Workbench Db}

theorem isValid_setPaths_iff (p : Panel) :
    ((p.setPaths paths).setFileSetName name).isValid = true ↔ paths.flatMap Path.usable ≠ [] := by
  have hpaths : ((p.setPaths paths).setFileSetName name).paths = paths.flatMap Path.usable :=
    Panel.setPaths_paths paths p
  unfold Panel.isValid
  rw [hpaths]
  simp

/-- **The way by the panel does with the paths what the other way does with the usable ones.** -/
theorem addByPanel_eq {device : DeviceId} (hstart : w.processor = .start)
    (hdevice : DeviceId.ofString (s.ids 0) = .ok device) (husable : paths.flatMap Path.usable ≠ []) :
    (addByPanel s name paths w).1 =
        (addByDevice s (s.ids 0) name (paths.flatMap Path.usable) w).1 ∧
      (addByPanel s name paths w).2.db =
        (addByDevice s (s.ids 0) name (paths.flatMap Path.usable) w).2.db := by
  obtain ⟨processor, current, db⟩ := w
  subst hstart
  generalize hpanel : (Panel.empty.setPaths paths).setFileSetName name = panel
  have hpaths : panel.paths = paths.flatMap Path.usable := by
    rw [← hpanel]
    exact Panel.setPaths_paths paths Panel.empty
  have hname : panel.fileSetName = name := by
    rw [← hpanel]
    rfl
  have hvalid : panel.isValid = true := by
    rw [← hpanel]
    exact (isValid_setPaths_iff name paths Panel.empty).2 husable
  obtain ⟨processor, hconfig⟩ : ∃ processor, (Processor.mk panel none 0).configForRun s.ids =
      (.ok ⟨device, name, paths.flatMap Path.usable⟩, processor) := by
    rw [← hpaths] at husable ⊢
    rw [← hname, Processor.configForRun_eq hdevice]
    exact ⟨_, if_neg husable⟩
  simp only [addByPanel, addByDevice, Workbench.run, Workbench.runWith, Processor.start, hpanel,
    hvalid, if_true, hconfig, hdevice, create_eq device name husable]
  exact ⟨rfl, rfl⟩

/-- **Without a usable path it does nothing.** -/
theorem addByPanel_blank (w : Workbench Db) (husable : paths.flatMap Path.usable = []) :
    (addByPanel s name paths w).1 = .error .noUsablePaths ∧
      (addByPanel s name paths w).2.db = w.db := by
  have hinvalid : ¬ ((w.processor.panel.setPaths paths).setFileSetName name).isValid = true := by
    rw [isValid_setPaths_iff]
    exact fun h => h husable
  unfold addByPanel
  simp only [hinvalid]
  exact ⟨rfl, rfl⟩

end Workbench

/-! ## Requests -/

section Requests

variable {e : Environment} {m : Machine} {caseDir? : Option String} {json : Bool} {name : String}
  {paths : List Path}

theorem execute_adding {device : DeviceId} (hdevice : DeviceId.ofString e.freshId = .ok device)
    (husable : paths.flatMap Path.usable ≠ []) (tree : FileTree) (dir : String) (db : Db) :
    execute e tree dir (.addLocalFiles name none paths) db =
      execute e tree dir (.addLocalFiles name (some e.freshId) (paths.flatMap Path.usable)) db := by
  obtain ⟨hanswer, hdb⟩ := addByPanel_eq (surroundings e tree) name paths
    (show (workbench dir db).processor = .start from rfl) hdevice husable
  unfold execute
  simp only
  rw [hanswer, hdb]
  rfl

theorem execute_adding_blank (husable : paths.flatMap Path.usable = []) (tree : FileTree)
    (dir : String) (db : Db) :
    execute e tree dir (.addLocalFiles name none paths) db = (.error .noUsablePaths, db) := by
  obtain ⟨hanswer, hdb⟩ := addByPanel_blank (surroundings e tree) name paths (workbench dir db) husable
  unfold execute
  simp only
  rw [hanswer, hdb]
  rfl

/-- Under a valid device id there is always a report. -/
theorem execute_adding_device {text : String} {device : DeviceId}
    (hdevice : DeviceId.ofString text = .ok device) (hne : paths ≠ []) (tree : FileTree) (dir : String)
    (db : Db) : ∃ report,
      (execute e tree dir (.addLocalFiles name (some text) paths) db).1 = .ok (.added report) := by
  simp only [execute, addByDevice, Workbench.runWith, hdevice, create_eq device name hne]
  exact ⟨_, rfl⟩

/-- A request on a case that can be opened. -/
theorem fulfil_opened {r : Request} (h : (m.openCase e.clock.now (.ofString (e.caseDir r))).1.isOk) :
    ∃ tree db, (fulfil e r m).1 = (execute e tree (e.caseDir r) r.command db).1 := by
  unfold fulfil
  simp only
  split
  · rename_i hopened
    rw [hopened] at h
    cases h
  · exact ⟨_, _, rfl⟩

/-- The two ways do the same to a machine and are answered in the same way. -/
theorem fulfil_adding {device : DeviceId} (hdevice : DeviceId.ofString e.freshId = .ok device)
    (husable : paths.flatMap Path.usable ≠ []) :
    fulfil e (.adding caseDir? json name paths none) m =
      fulfil e (.adding caseDir? json name (paths.flatMap Path.usable) (some e.freshId)) m := by
  unfold fulfil
  simp only [Request.adding, Environment.caseDir, execute_adding hdevice husable]

/-- Without a usable path the case is opened, and that is all. -/
theorem fulfil_adding_blank (husable : paths.flatMap Path.usable = []) :
    fulfil e (.adding caseDir? json name paths none) m =
      ((fulfil e ⟨caseDir?, json, .createCase⟩ m).1.bind fun _ => .error .noUsablePaths,
        (fulfil e ⟨caseDir?, json, .createCase⟩ m).2) := by
  unfold fulfil
  simp only [Request.adding, Environment.caseDir, execute_adding_blank husable]
  split <;> rfl

/-- **The two ways to add local files agree on what the panel leaves as it is.**  Without a device id, a
request does to the machine, and is answered with, what the request under the id that is drawn does for the
usable paths; if there are none the case is opened, and that is all.  The usable paths are those that
were given if and only if all of them are text, not blank at their ends and without a comma.  So runs of
the program whose arguments ask for the one and for the other end in the same way. -/
theorem adding_ways_agree (e : Environment) (m : Machine) (caseDir? : Option String) (json : Bool)
    (name : String) (paths : List Path) (device : DeviceId)
    (hdevice : DeviceId.ofString e.freshId = .ok device) :
    let adding := Request.adding caseDir? json name
    let usable := paths.flatMap Path.usable
    (paths ≠ [] → (∀ p ∈ paths, p.Plain) →
        fulfil e (adding paths none) m = fulfil e (adding paths (some e.freshId)) m) ∧
      (usable ≠ [] →
        fulfil e (adding paths none) m = fulfil e (adding usable (some e.freshId)) m) ∧
      (usable = [] → fulfil e (adding paths none) m =
        ((fulfil e ⟨caseDir?, json, .createCase⟩ m).1.bind fun _ => .error .noUsablePaths,
          (fulfil e ⟨caseDir?, json, .createCase⟩ m).2)) ∧
      (usable = paths ↔ ∀ p ∈ paths, p.Plain) ∧
      ∀ args args', usable ≠ [] → Request.ofArguments args = .ok (adding paths none) →
        Request.ofArguments args' = .ok (adding usable (some e.freshId)) →
        invoke e args m = invoke e args' m := by
  intro adding usable
  have hways : usable ≠ [] →
      fulfil e (adding paths none) m = fulfil e (adding usable (some e.freshId)) m :=
    fulfil_adding hdevice
  have hplain : usable = paths ↔ ∀ p ∈ paths, p.Plain := flatMap_usable_eq_iff paths
  refine ⟨?_, hways, fulfil_adding_blank, hplain, ?_⟩
  · intro hne hall
    have hsame : usable = paths := hplain.2 hall
    rw [hsame] at hways
    exact hways hne
  · intro args args' husable hargs hargs'
    unfold invoke
    simp only [hargs, hargs', hways husable]
    rfl

end Requests

/-- An environment in which the device id that is drawn is known. -/
def plainEnvironment : Environment :=
  ⟨none, none, none, "dev-1", .universal 7, FileTree.walk⟩

/-- A machine with a file whose name is a comma. -/
def commaMachine : Machine :=
  .ofTree ⟨.dir [] 0 [.file (Text.Utf8.bytes ",") 1 5], []⟩

theorem adding_ways_agree_list :
    let adding := Request.adding (some "/") true "set"
    fulfil plainEnvironment (adding [.ofString " a,b", .ofString ",", .ofString "c"] none) commaMachine =
      fulfil plainEnvironment (adding [.ofString "a", .ofString "b", .ofString "c"] (some "dev-1"))
        commaMachine := by
  intro adding
  have husable : [Path.ofString " a,b", Path.ofString ",", Path.ofString "c"].flatMap Path.usable =
      [.ofString "a", .ofString "b", .ofString "c"] := by
    simp only [List.flatMap_cons, List.flatMap_nil, Path.usable, Path.display_ofString]
    decide
  obtain ⟨_, hways, _⟩ := adding_ways_agree plainEnvironment commaMachine (some "/") true "set"
    [.ofString " a,b", .ofString ",", .ofString "c"] ⟨"dev-1"⟩ (by decide)
  rw [husable] at hways
  exact hways (by simp)

/-- A file whose name is a comma is added under a device id that is given, and not otherwise. -/
theorem adding_ways_differ :
    let answer := fun device? =>
      (fulfil plainEnvironment (.adding (some "/") true "" [.ofString ","] device?) commaMachine).1
    answer none = .error .noUsablePaths ∧
      (∃ report, answer (some plainEnvironment.freshId) = .ok (.added report)) ∧
      answer none ≠ answer (some plainEnvironment.freshId) := by
  intro answer
  have hopened : (commaMachine.openCase 7 (.ofString "/")).1.isOk = true := by cbv
  have hpanel : answer none = .error .noUsablePaths := by
    obtain ⟨tree, db, hexecute⟩ := fulfil_opened (e := plainEnvironment) (m := commaMachine)
      (r := .adding (some "/") true "" [.ofString ","] none) hopened
    have husable : [Path.ofString ","].flatMap Path.usable = [] := by
      simp only [List.flatMap_cons, List.flatMap_nil, Path.usable, Path.display_ofString]
      decide
    exact hexecute.trans (congrArg Prod.fst (execute_adding_blank husable tree _ db))
  have hdevice : ∃ report, answer (some plainEnvironment.freshId) = .ok (.added report) := by
    obtain ⟨tree, db, hexecute⟩ := fulfil_opened (e := plainEnvironment) (m := commaMachine)
      (r := .adding (some "/") true "" [.ofString ","] (some plainEnvironment.freshId)) hopened
    have hid : DeviceId.ofString plainEnvironment.freshId = .ok ⟨"dev-1"⟩ := by decide
    obtain ⟨report, hreport⟩ := execute_adding_device hid (List.cons_ne_nil _ _) tree _ db
    exact ⟨report, hexecute.trans hreport⟩
  obtain ⟨report, hreport⟩ := hdevice
  refine ⟨hpanel, ⟨report, hreport⟩, ?_⟩
  rw [hpanel, hreport]
  intro heq
  cases heq

end Casefile.Cli
