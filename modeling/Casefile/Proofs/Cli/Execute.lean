import Casefile.Cli.Invocation
import Casefile.Proofs.Ingest.AllOrNothing
import Casefile.Proofs.Store.Gains

/-!
# What a command does to a case

* `Command.adds` — the commands that add a data source; `Command.listedName` — the name under which a listing
  shows a source that a command has added.
* `Executed` — the ways in which a command ends: with a source added, with nothing changed and an answer
  that says so, or with something shown.

Principal results: `execute_cases` — every command ends in one of these ways.  `execute_dataSources` — the
command for it shows the entries of all that has been committed.
-/

set_option autoImplicit false

namespace Casefile.Cli

/-- Whether a command is to add a data source. -/
def Command.adds : Command → Bool
  | .addLocalFiles .. => true
  | .addImage .. => true
  | _ => false

/-- Whether a command of this name is to add a data source. -/
def CommandName.adds : CommandName → Bool
  | .addLocalFiles => true
  | .addImage => true
  | _ => false

theorem Command.adds_ofReading (r : Reading) (name : CommandName) :
    (Command.ofReading r name).adds = name.adds := by
  cases name <;> rfl

theorem bind_eq_ok {α β : Type} {x : Except Stop α} {f : α → Except Stop β} {b : β}
    (h : (x >>= f) = .ok b) : ∃ a, x = .ok a ∧ f a = .ok b := by
  cases x with
  | error stop => cases h
  | ok a => exact ⟨a, rfl, h⟩

/-- A request is read off a command line that names its command. -/
theorem Request.ofArguments_eq_ok {words : List Word} {r : Request} (h : Request.ofArguments words = .ok r) :
    ∃ outer word rest name inner, readToCommand .start words = .ok (outer, word, rest) ∧
      CommandName.ofWord? word = some name ∧ r.command = .ofReading inner name := by
  obtain ⟨⟨outer, word, rest⟩, hread, h⟩ := bind_eq_ok h
  dsimp only at h
  split at h
  · cases h
  · cases hname : CommandName.ofWord? word with
    | none =>
      rw [hname] at h
      cases h
    | some name =>
      rw [hname] at h
      obtain ⟨inner, _, h⟩ := bind_eq_ok h
      obtain ⟨_, _, h⟩ := bind_eq_ok h
      cases h
      exact ⟨outer, word, rest, name, inner, hread, hname, rfl⟩

/-- The name under which a listing shows a source that a command has added: an image goes by its first
segment. -/
def Command.listedName (naming : Naming) (content : Content) : Command → String
  | .addImage _ paths => naming.image (paths.headD "")
  | _ => content.name

/-- What deeds have entries for is one data source, under the name that a command gives to it. -/
def OneSource (command : Command) (content : Content) (deeds : List Deed) : Prop :=
  ∀ naming, deeds.filterMap (Deed.listed? naming) =
    [(content.objectId, command.listedName naming content)]

/-- How a command ends on tables, with its answer and the tables after it. -/
inductive Executed (command : Command) (old : Tables) : Except Refusal Outcome → Tables → Prop where
  | added {report : Report} {content : Content} {deeds : List Deed} {new : Tables}
      (hadds : command.adds = true) (hverdict : report.verdict ≠ .criticalErrors)
      (hcontents : report.contents = [content]) (hrecords : Relational.Records deeds old new)
      (hone : OneSource command content deeds) :
      Executed command old (.ok (.added report)) new
  | notAdded {report : Report} (hadds : command.adds = true)
      (hverdict : report.verdict = .criticalErrors) : Executed command old (.ok (.added report)) old
  | refused (refusal : Refusal) : Executed command old (.error refusal) old
  | shown {outcome : Outcome} (hadds : command.adds = false)
      (hplain : ∀ report, outcome ≠ .added report) : Executed command old (.ok outcome) old

/-! ## Adding local files -/

theorem EntryDeeds.not_listed {source : ObjectId} (naming : Naming) :
    ∀ {entries : List Entry} {ids : List ObjectId} {deeds : List Deed},
      EntryDeeds source ids entries deeds → deeds.filterMap (Deed.listed? naming) = []
  | [], _, _, h => by
    rw [show _ = [] from h]
    rfl
  | _ :: _, _, _, ⟨_, _, _, _, hdeeds, hrest⟩ => by
    rw [hdeeds, List.filterMap_cons]
    exact not_listed naming hrest

theorem ScanDeeds.not_listed {source : ObjectId} (naming : Naming) :
    ∀ {scans : List Scan} {deeds : List Deed}, ScanDeeds source scans deeds →
      deeds.filterMap (Deed.listed? naming) = []
  | [], _, h => by
    rw [show _ = [] from h]
    rfl
  | _ :: _, _, ⟨_, _, hdeeds, hfirst, hrest⟩ => by
    rw [hdeeds, List.filterMap_append, EntryDeeds.not_listed naming hfirst, not_listed naming hrest]
    rfl

section AddLocalFiles

variable (e : Environment) (tree : FileTree)

/-- A run takes one source in, or changes nothing. -/
theorem ingest_cases (host : Host) (config : SourceConfig) {w : Workbench Db} {command : Command}
    (hv : w.db.inner.committed.WellFormed) (hadds : command.adds = true)
    (hname : ∀ naming content, command.listedName naming content = content.name) :
    let ran := w.ingest (surroundings e tree) host config
    Executed command w.db.inner.committed (.ok (.added ran.1.report)) ran.2.db.inner.committed := by
  intro ran
  obtain ⟨_, _, hway⟩ := work_ends (c := Relational.contract.withFaults []) (.ofTreeWith e.walk tree) host
    e.clock config hv (.ofExcept (w.current.get.map fun _ => ())) .none rfl
  rcases hway with htook | ⟨hverdict, _, _, hsame⟩
  · have hverdict := htook.verdict_ne
    obtain ⟨scans, content, deeds, _, _, _, hdeeds, hcontents, _, _, rfl, hrecords, rfl⟩ := htook
    refine .added hadds hverdict hcontents hrecords fun naming => ?_
    rw [hname, List.filterMap_cons, ScanDeeds.not_listed naming hdeeds]
    rfl
  · have hsame : w.db.inner.committed = ran.2.db.inner.committed := hsame
    rw [← hsame]
    exact .notAdded hadds hverdict

/-- The way by the panel is a run or a refusal. -/
theorem addByPanel_cases (s : Surroundings Db Tx) (name : String) (paths : List Path)
    (w : Workbench Db) :
    (∃ refusal, (addByPanel s name paths w).1 = .error refusal ∧
      (addByPanel s name paths w).2.db = w.db) ∨
    ∃ config processor, addByPanel s name paths w =
      (.ok (({ w with processor } : Workbench Db).ingest s .quiet config).1.report,
        (({ w with processor } : Workbench Db).ingest s .quiet config).2) := by
  unfold addByPanel
  simp only
  split
  · unfold Workbench.run
    generalize Processor.configForRun _ _ = result
    obtain ⟨answer, processor⟩ := result
    cases answer with
    | error e => exact Or.inl ⟨_, rfl, rfl⟩
    | ok config => exact Or.inr ⟨config, processor, rfl⟩
  · exact Or.inl ⟨_, rfl, rfl⟩

/-- So is the way by a given device id. -/
theorem addByDevice_cases (s : Surroundings Db Tx) (device name : String) (paths : List Path)
    (w : Workbench Db) :
    (∃ refusal, addByDevice s device name paths w = (.error refusal, w)) ∨
    ∃ config, addByDevice s device name paths w =
      (.ok (w.ingest s .quiet config).1.report, (w.ingest s .quiet config).2) := by
  unfold addByDevice Workbench.runWith
  cases DeviceId.ofString device with
  | error fault => exact Or.inl ⟨_, rfl⟩
  | ok id =>
    simp only
    cases SourceConfig.create id name paths with
    | error fault => exact Or.inl ⟨_, rfl⟩
    | ok config => exact Or.inr ⟨config, rfl⟩

end AddLocalFiles

/-! ## Any command -/

variable (e : Environment) (tree : FileTree) (dir : String) {db : Db}

theorem execute_addImage (hopen : db.closed = false) (hc : db.committed.WellFormed)
    (device? : Option String) (paths : List String) :
    let done := execute e tree dir (.addImage device? paths) db
    Executed (.addImage device? paths) db.committed done.1 done.2.committed := by
  intro done
  have hdone : done = (((addImage (surroundings e tree) (device?.getD e.freshId) paths db).1.map .added),
      (addImage (surroundings e tree) (device?.getD e.freshId) paths db).2) := rfl
  rw [hdone]
  unfold addImage
  cases DeviceId.ofString (device?.getD e.freshId) with
  | error fault => exact .refused _
  | ok device =>
    simp only
    generalize hrequest : (⟨device, paths, _, _⟩ : ImageRequest) = request
    have hpaths : request.paths = paths := by rw [← hrequest]
    have hstore : (surroundings e tree).store = Relational.store := rfl
    rw [hstore]
    rcases Relational.imageAtOnce_cases hopen hc request with
      ⟨content, db', himage, hrecords⟩ | ⟨failure, db', himage, hsame⟩
    · rw [himage]
      refine .added rfl (fun hverdict => ?_) rfl hrecords fun naming => ?_
      · cases hverdict
      · have hname : content.name = paths.headD "" := by
          obtain ⟨d, ⟨_, hperform, _⟩, _⟩ := hrecords
          obtain ⟨first, rest, hfirst⟩ : ∃ first rest, paths = first :: rest := by
            cases paths with
            | nil => simp [Draft.perform, Deed.request, hpaths] at hperform
            | cons first rest => exact ⟨first, rest, rfl⟩
          rw [← hpaths] at hfirst
          rw [show Deed.request _ = Request.image request from rfl, Draft.perform_image_eq hfirst]
            at hperform
          cases hperform
          rw [← hpaths, hfirst]
          rfl
        show [(content.objectId, naming.image content.name)] = _
        rw [hname]
        rfl
    · rw [himage, hsame]
      exact .refused _

/-- **Every command ends in one of the ways in `Executed`.** -/
theorem execute_cases (command : Command) (hopen : db.closed = false) (hc : db.committed.WellFormed) :
    Executed command db.committed (execute e tree dir command db).1
      (execute e tree dir command db).2.committed := by
  cases command with
  | createCase => exact .shown rfl fun _ h => by cases h
  | processors => exact .shown rfl fun _ h => by cases h
  | addImage device? paths => exact execute_addImage e tree dir hopen hc device? paths
  | dataSources fullPath =>
    simp only [execute]
    cases listSources _ _ _ with
    | error refusal => exact .refused refusal
    | ok names => exact .shown rfl fun _ h => by cases h
  | addLocalFiles name device? paths =>
    cases device? with
    | none =>
      simp only [execute]
      rcases addByPanel_cases (surroundings e tree) name paths (workbench dir db) with
        ⟨refusal, hanswer, hdb⟩ | ⟨config, processor, hran⟩
      · rw [hanswer, hdb]
        exact .refused refusal
      · rw [hran]
        exact ingest_cases e tree .quiet config (w := { workbench dir db with processor }) hc rfl
          fun _ _ => rfl
    | some device =>
      simp only [execute]
      rcases addByDevice_cases (surroundings e tree) device name paths (workbench dir db) with
        ⟨refusal, hran⟩ | ⟨config, hran⟩
      · rw [hran]
        exact .refused refusal
      · rw [hran]
        exact ingest_cases e tree .quiet config (w := workbench dir db) hc rfl fun _ _ => rfl

/-- Without faults the names are those of the database itself. -/
theorem load_withoutFaults {σ τ : Type} (naming : Naming) (store : Store σ τ) (m : Metered σ) :
    (NameMap.load naming (store.withFaults []) m).1 = (NameMap.load naming store m.inner).1 := by
  have hlogical : (store.withFaults []).logicalSources m =
      ((store.logicalSources m.inner).1,
        { m.count .logicalSources with inner := (store.logicalSources m.inner).2 }) := rfl
  have himages : ∀ m : Metered σ, (store.withFaults []).imageSources m =
      ((store.imageSources m.inner).1,
        { m.count .imageSources with inner := (store.imageSources m.inner).2 }) := fun _ => rfl
  unfold NameMap.load
  rw [hlogical]
  rcases store.logicalSources m.inner with ⟨rows | failure | text, s⟩
  · simp only [himages]
    rcases store.imageSources s with ⟨rows' | failure | text, s'⟩ <;> rfl
  · rfl
  · rfl

/-- **The data sources that are shown are the entries of all that has been committed.** -/
theorem execute_dataSources {deeds : List Deed} (hopen : db.closed = false)
    (hc : db.committed.Complete) (hshows : Shows db.committed deeds) (fullPath : Bool) :
    (execute e tree dir (.dataSources fullPath) db).1 = .ok (.sources
      (deeds.filterMap (Deed.listed? (if fullPath then .full else .short)))) := by
  generalize hnaming : (if fullPath then Naming.full else .short) = naming
  have hload : (NameMap.load naming (Relational.store.withFaults []) (.start db)).1 =
      .ok (deeds.filterMap (Deed.listed? naming)) := by
    rw [load_withoutFaults]
    exact congrArg Prod.fst (hshows.load hc hopen naming)
  have hnames : ((workbench dir db).names (surroundings e tree) naming).1 =
      .ok (deeds.filterMap (Deed.listed? naming)) := hload
  simp only [execute, hnaming, listSources, hnames]
  rfl

end Casefile.Cli
