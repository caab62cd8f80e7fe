import Casefile.Proofs.Cli.Execute
import Casefile.Proofs.Machine
import Mathlib

/-!
# The exit code tells the truth

* `Invocation` — a run of the program in the course of time, with what has become of the file tree by then.
* `Invocation.Adds` — the command line names a command that adds a data source. `Invocation.Inquires` — it asks for
  help or for the version.
* `Invocation.Truthful` — the exit code says whether a data source was added, and if not nothing was.
* `sourcesAdded` — what the runs of a history that ended with 0 have reported to have added.

Principal results: `Invocation.run_cases` — a run records one source and ends with 0, or changes
nothing.  `afterwards_keeps` — what a history has recorded is what its runs have reported.
`exit_code_truthful` — so over any history the exit codes tell the truth, unless help is asked for, and a listing
shows what was added.  `help_ends_with_zero` — a run that asks for help ends with 0 and adds nothing.
-/

set_option autoImplicit false

namespace Casefile

namespace Cli

/-- A run of the program, with what has become of the file tree before it. -/
structure Invocation where
  environment : Environment
  tree : FileTree
  args : List Word

namespace Invocation

/-- The machine at the time of the run. -/
def machine (i : Invocation) (m : Machine) : Machine :=
  { m with tree := i.tree }

/-- How the run ends, and the machine after it. -/
def run (i : Invocation) (m : Machine) : Exit × Machine :=
  invoke i.environment i.args (i.machine m)

/-- The command that the command line names, if it comes to one. -/
def command? (i : Invocation) : Option CommandName :=
  match readToCommand .start i.args with
  | .error _ => none
  | .ok (_, word, _) => CommandName.ofWord? word

/-- The command line names a command that adds a data source, whatever else stands in it. -/
def Adds (i : Invocation) : Prop :=
  ∃ name, i.command? = some name ∧ name.adds = true

/-- The command line asks for help or for the version. -/
def Inquires (i : Invocation) : Prop :=
  ∃ stop, Request.ofArguments i.args = .error stop ∧ stop ≠ .misuse

/-- What a listing has to show for the run: the sources that it reports to have added, if it ends with 0. -/
def entries (naming : Naming) (i : Invocation) (m : Machine) : NameMap :=
  match Request.ofArguments i.args with
  | .error _ => []
  | .ok r =>
    match (fulfil i.environment r (i.machine m)).1 with
    | .ok (.added report) =>
      if (i.run m).1.code = 0 then
        report.contents.map fun content => (content.objectId, r.command.listedName naming content)
      else []
    | _ => []

/-- The case that the run is about, if it is about one, is at a location and can be opened. -/
def Usable (site : Location) (i : Invocation) (m : Machine) : Prop :=
  ∀ r, Request.ofArguments i.args = .ok r →
    (i.machine m).Usable i.environment.clock.now (.ofString (i.environment.caseDir r)) site

/-- How a run ends, with what it has recorded: one data source, which it tells about, or nothing. -/
inductive Ran (i : Invocation) (site : Location) (m : Machine) : List Deed → Prop where
  | added {deeds : List Deed} {id : ObjectId} (hadds : i.Adds) (hasked : ¬ i.Inquires)
      (hcode : (i.run m).1.code = 0)
      (hgains : (m.rowsAt site).Gains ((i.run m).2.rowsAt site) [id])
      (hentries : ∀ naming, ∃ name, i.entries naming m = [(id, name)])
      (hlisted : ∀ naming, deeds.filterMap (Deed.listed? naming) = i.entries naming m) :
      Ran i site m deeds
  | kept (hsame : (i.run m).2.rowsAt site = m.rowsAt site) (hentries : ∀ naming, i.entries naming m = [])
      (hcode : i.Adds → ¬ i.Inquires → (i.run m).1.code ≠ 0) : Ran i site m []

/-- The exit code of a run tells the truth about the rows at a location: 0 from a run of a command that adds a
data source says that it has added exactly one, unless it was asked for help, and any other run has changed
nothing. -/
structure Truthful (i : Invocation) (site : Location) (m : Machine) : Prop where
  added : i.Adds → ¬ i.Inquires →
    ((i.run m).1.code = 0 ↔ ∃ id, (m.rowsAt site).Gains ((i.run m).2.rowsAt site) [id])
  entry : i.Adds → ¬ i.Inquires → (i.run m).1.code = 0 →
    ∃ id, (m.rowsAt site).Gains ((i.run m).2.rowsAt site) [id] ∧
      ∀ naming, ∃ name, i.entries naming m = [(id, name)]
  kept : ¬ (i.Adds ∧ ¬ i.Inquires ∧ (i.run m).1.code = 0) →
    (i.run m).2.rowsAt site = m.rowsAt site ∧ ∀ naming, i.entries naming m = []
  inquired : i.Inquires → (i.run m).1.code = 0 ∧ (i.run m).1.error? = none ∧ (i.run m).2 = i.machine m
  misused : Request.ofArguments i.args = .error .misuse → (i.run m).1.code = 2

end Invocation

/-- The machine after some runs, one after another. -/
def afterwards (history : List Invocation) (m : Machine) : Machine :=
  history.foldl (fun m i => (i.run m).2) m

/-- The case at a location can be opened in every run of a history that is about one. -/
def StaysUsable (site : Location) : List Invocation → Machine → Prop
  | [], _ => True
  | i :: history, m => i.Usable site m ∧ StaysUsable site history (i.run m).2

/-- What the runs of a history that ended with 0 have reported to have added, as a listing shows it. -/
def sourcesAdded (naming : Naming) : List Invocation → Machine → NameMap
  | [], _ => []
  | i :: history, m => i.entries naming m ++ sourcesAdded naming history (i.run m).2

/-! ## One run -/

/-- Deeds that have entries for one source have recorded that source. -/
theorem OneSource.sourceId {command : Command} {content : Content} {deeds : List Deed}
    (h : OneSource command content deeds) : deeds.filterMap Deed.sourceId? = [content.objectId] := by
  have hsource : Deed.sourceId? = fun deed => (deed.listed? .full).map (·.1) := by
    funext deed
    cases deed <;> rfl
  rw [hsource, ← List.map_filterMap, h .full]
  rfl

section

variable {site : Location} {m : Machine} {deeds : List Deed}

/-- A request on a case that is usable. -/
theorem fulfil_cases {e : Environment} {r : Request} (h : m.Keeps site deeds)
    (hu : m.Usable e.clock.now (.ofString (e.caseDir r)) site) :
    ∃ old new, old.WellFormed ∧ Shows old deeds ∧ old.rows = m.rowsAt site ∧
      (fulfil e r m).2.databases.lookup site = some new ∧
      Executed r.command old (fulfil e r m).1 new ∧
      ∀ fullPath, r.command = .dataSources fullPath → (fulfil e r m).1 = .ok (.sources
        (deeds.filterMap (Deed.listed? (if fullPath then .full else .short)))) := by
  obtain ⟨db, m', hopened, hopen, hwf, hshows, hrows⟩ := h.openCase hu
  refine ⟨db.committed, (execute e m'.tree (e.caseDir r) r.command db).2.committed, hwf, hshows, hrows,
    ?_⟩
  simp only [fulfil, hopened]
  refine ⟨Machine.lookup_save _ _ _, execute_cases e m'.tree (e.caseDir r) r.command hopen hwf, ?_⟩
  intro fullPath hcommand
  rw [hcommand]
  exact execute_dataSources e m'.tree (e.caseDir r) hopen hwf.complete hshows fullPath

namespace Invocation

/-- A request is one of the command that the command line names. -/
theorem adds_iff {i : Invocation} {r : Request} (hr : Request.ofArguments i.args = .ok r) :
    i.Adds ↔ r.command.adds = true := by
  obtain ⟨outer, word, rest, name, inner, hread, hname, hcommand⟩ := Request.ofArguments_eq_ok hr
  have hnamed : i.command? = some name := by
    unfold command?
    rw [hread]
    exact hname
  rw [hcommand, Command.adds_ofReading]
  constructor
  · rintro ⟨name', hname', hadds⟩
    cases hnamed.symm.trans hname'
    exact hadds
  · exact fun hadds => ⟨name, hnamed, hadds⟩

theorem not_inquires {i : Invocation} {r : Request} (hr : Request.ofArguments i.args = .ok r) :
    ¬ i.Inquires := by
  rintro ⟨stop, hstop, _⟩
  cases hr.symm.trans hstop

/-- A command line that is not understood, or asks for help, changes nothing. -/
theorem run_misread {i : Invocation} {stop : Stop} (h : Request.ofArguments i.args = .error stop)
    (m : Machine) : (i.run m).2 = i.machine m := by
  unfold run invoke
  rw [h]
  cases stop <;> rfl

theorem run_inquired {i : Invocation} (h : i.Inquires) (m : Machine) :
    (i.run m).1.code = 0 ∧ (i.run m).1.error? = none := by
  obtain ⟨stop, hstop, hnot⟩ := h
  unfold run invoke
  rw [hstop]
  cases stop with
  | misuse => exact absurd rfl hnot
  | version => exact ⟨rfl, rfl⟩
  | help level => exact ⟨rfl, rfl⟩

theorem run_misused {i : Invocation} (h : Request.ofArguments i.args = .error .misuse) (m : Machine) :
    (i.run m).1.code = 2 := by
  unfold run invoke
  rw [h]

/-- How a run ends whose command line is understood. -/
theorem run_code {i : Invocation} {r : Request} (hr : Request.ofArguments i.args = .ok r)
    (m : Machine) :
    (i.run m).1.code = (match (fulfil i.environment r (i.machine m)).1 with
        | .ok outcome => outcome.code
        | .error _ => 1) ∧
      (i.run m).2 = (fulfil i.environment r (i.machine m)).2 := by
  unfold run invoke
  simp only [hr]
  rcases fulfil i.environment r (i.machine m) with ⟨_ | _, _⟩ <;> exact ⟨rfl, rfl⟩

/-- A request that has been carried out leaves the case with what has been recorded before and what the run
has recorded. -/
theorem ran_of_executed {i : Invocation} {r : Request} {old new : Tables}
    (hr : Request.ofArguments i.args = .ok r) (hwf : old.WellFormed) (hshows : Shows old deeds)
    (hrows : old.rows = m.rowsAt site)
    (hnew : (fulfil i.environment r (i.machine m)).2.databases.lookup site = some new)
    (hexecuted : Executed r.command old (fulfil i.environment r (i.machine m)).1 new) :
    ∃ more, (i.run m).2.Keeps site (deeds ++ more) ∧ i.Ran site m more := by
  obtain ⟨hcode, hmachine⟩ := run_code hr m
  have hrowsAt : (i.run m).2.rowsAt site = new.rows := by
    unfold Machine.rowsAt
    rw [hmachine, hnew]
    rfl
  -- all the ways but the first leave the tables as they were
  have hkept : new = old → (∀ naming, i.entries naming m = []) →
      (i.Adds → ¬ i.Inquires → (i.run m).1.code ≠ 0) →
      ∃ more, (i.run m).2.Keeps site (deeds ++ more) ∧ i.Ran site m more := by
    rintro rfl hnone hno
    refine ⟨[], ?_, .kept (hrowsAt.trans hrows) hnone hno⟩
    rw [List.append_nil, hmachine]
    exact .tables hnew hwf hshows
  generalize hanswer : (fulfil i.environment r (i.machine m)).1 = answer at hexecuted hcode
  cases hexecuted with
  | @added report content more _ hadds hverdict hcontents hrecords hone =>
    have hzero : (i.run m).1.code = 0 := by
      rw [hcode]
      exact if_neg hverdict
    have hentries : ∀ naming,
        i.entries naming m = [(content.objectId, r.command.listedName naming content)] := by
      intro naming
      unfold entries
      simp only [hr, hanswer, if_pos hzero, hcontents, List.map_cons, List.map_nil]
    obtain ⟨hshows', hwf'⟩ := hrecords.shows hwf hshows
    have hgains : (m.rowsAt site).Gains ((i.run m).2.rowsAt site) [content.objectId] := by
      rw [hrowsAt, ← hrows, ← hone.sourceId]
      exact hrecords.gains hwf
    refine ⟨more, ?_, .added ((adds_iff hr).2 hadds) (not_inquires hr) hzero hgains
      (fun naming => ⟨_, hentries naming⟩) fun naming => ?_⟩
    · rw [hmachine]
      exact .tables hnew hwf' hshows'
    · rw [hone naming, hentries naming]
  | @notAdded report hadds hverdict =>
    have hone : (i.run m).1.code ≠ 0 := by
      rw [hcode]
      simp only [Outcome.code, if_pos hverdict]
      decide
    refine hkept rfl (fun naming => ?_) fun _ _ => hone
    unfold entries
    simp only [hr, hanswer, if_neg hone]
  | refused refusal =>
    refine hkept rfl (fun naming => ?_) fun _ _ => ?_
    · unfold entries
      simp only [hr, hanswer]
    · rw [hcode]
      exact Nat.one_ne_zero
  | @shown outcome hadds hplain =>
    refine hkept rfl (fun naming => ?_) fun hadds' => ?_
    · unfold entries
      simp only [hr, hanswer]
      cases outcome with
      | added report => exact absurd rfl (hplain report)
      | _ => rfl
    · cases hadds.symm.trans ((adds_iff hr).1 hadds')

/-- **A run records one source and ends with 0, or changes nothing.** -/
theorem run_cases {i : Invocation} (h : m.Keeps site deeds) (hu : i.Usable site m) :
    ∃ more, (i.run m).2.Keeps site (deeds ++ more) ∧ i.Ran site m more := by
  have hm : (i.machine m).Keeps site deeds := h.withTree i.tree
  cases hargs : Request.ofArguments i.args with
  | error stop =>
    have hrun := run_misread hargs m
    refine ⟨[], ?_, .kept ?_ (fun naming => ?_) fun _ hasked => ?_⟩
    · rw [hrun, List.append_nil]
      exact hm
    · rw [hrun]
      rfl
    · unfold entries
      rw [hargs]
    · by_cases hstop : stop = .misuse
      · rw [run_misused (hstop ▸ hargs)]
        exact Nat.succ_ne_zero 1
      · exact absurd ⟨stop, hargs, hstop⟩ hasked
  | ok r =>
    obtain ⟨old, new, hwf, hshows, hrows, hnew, hexecuted, _⟩ := fulfil_cases hm (hu r hargs)
    exact ran_of_executed hargs hwf hshows hrows hnew hexecuted

/-- A listing that is asked for shows the entries of all that has been recorded. -/
theorem run_dataSources {i : Invocation} {r : Request} {fullPath : Bool} (h : m.Keeps site deeds)
    (hu : i.Usable site m) (hr : Request.ofArguments i.args = .ok r)
    (hcommand : r.command = .dataSources fullPath) (hjson : r.json = true) :
    (i.run m).1 = ⟨0, (NameMap.toJson (deeds.filterMap
      (Deed.listed? (if fullPath then .full else .short)))).pretty ++ "\n", none⟩ := by
  obtain ⟨_, _, _, _, _, _, _, hlist⟩ := fulfil_cases (h.withTree i.tree) (hu r hr)
  have hanswer := hlist fullPath hcommand
  unfold run invoke
  simp only [hr]
  change (fulfil i.environment r (i.machine m)).1 = _ at hanswer
  generalize fulfil i.environment r (i.machine m) = done at hanswer ⊢
  obtain ⟨answer, m'⟩ := done
  cases hanswer
  simp only [Outcome.code, Outcome.text, hjson, if_true]

namespace Ran

variable {i : Invocation}

theorem listed (h : i.Ran site m deeds) (naming : Naming) :
    deeds.filterMap (Deed.listed? naming) = i.entries naming m := by
  cases h with
  | added _ _ _ _ _ hlisted => exact hlisted naming
  | kept _ hentries _ => exact (hentries naming).symm

theorem truthful (h : i.Ran site m deeds) : i.Truthful site m := by
  have hinquired : i.Inquires →
      (i.run m).1.code = 0 ∧ (i.run m).1.error? = none ∧ (i.run m).2 = i.machine m := by
    intro hasked
    obtain ⟨hcode, herror⟩ := run_inquired hasked m
    obtain ⟨stop, hstop, _⟩ := hasked
    exact ⟨hcode, herror, run_misread hstop m⟩
  have hmisused : Request.ofArguments i.args = .error .misuse → (i.run m).1.code = 2 :=
    fun hargs => run_misused hargs m
  cases h with
  | @added _ id hadds hasked hcode hgains hentries _ =>
    exact ⟨fun _ _ => iff_of_true hcode ⟨id, hgains⟩, fun _ _ _ => ⟨id, hgains, hentries⟩,
      fun hno => absurd ⟨hadds, hasked, hcode⟩ hno, hinquired, hmisused⟩
  | kept hsame hentries hcode =>
    refine ⟨fun hadds hasked => iff_of_false (hcode hadds hasked) fun ⟨id, hgains⟩ => ?_,
      fun hadds hasked hzero => absurd hzero (hcode hadds hasked), fun _ => ⟨hsame, hentries⟩, hinquired,
      hmisused⟩
    rw [hsame] at hgains
    cases hgains.eq_nil_of_self

end Ran

end Invocation

/-! ## Any history -/

/-- A run of a usable history can be opened, and so could all that came before it. -/
theorem StaysUsable.split {i : Invocation} {after : List Invocation} :
    ∀ {before : List Invocation} {m : Machine}, StaysUsable site (before ++ i :: after) m →
      StaysUsable site before m ∧ i.Usable site (afterwards before m)
  | [], _, ⟨hi, _⟩ => ⟨trivial, hi⟩
  | _ :: _, _, ⟨hfirst, hrest⟩ =>
    have ⟨hbefore, hi⟩ := split hrest
    ⟨⟨hfirst, hbefore⟩, hi⟩

/-- **A history records what its runs have reported**: by induction, as every run does. -/
theorem afterwards_keeps :
    ∀ {history : List Invocation} {m : Machine} {deeds : List Deed}, m.Keeps site deeds →
      StaysUsable site history m → ∃ more, (afterwards history m).Keeps site (deeds ++ more) ∧
        ∀ naming, more.filterMap (Deed.listed? naming) = sourcesAdded naming history m
  | [], _, deeds, h, _ => ⟨[], (List.append_nil deeds).symm ▸ h, fun _ => rfl⟩
  | i :: history, _, _, h, ⟨hi, hrest⟩ => by
    obtain ⟨first, hfirst, hran⟩ := Invocation.run_cases h hi
    obtain ⟨more, hmore, hlisted⟩ := afterwards_keeps hfirst hrest
    refine ⟨first ++ more, ?_, fun naming => ?_⟩
    · rw [← List.append_assoc]
      exact hmore
    · rw [List.filterMap_append, hran.listed naming, hlisted naming]
      rfl

end

/-- **The exit code tells the truth over any history.**  On a case that starts fresh and stays usable, a
run of a command that adds a data source, with any arguments that do not ask for help, ends with 0 if and only if
it has added exactly one, no other run changes the rows, and a listing shows what the runs before it that ended
with 0 have reported to have added, each source once.  A run that asks for help or for the version ends with 0
and changes nothing. -/
theorem exit_code_truthful {site : Location} {m : Machine} (hfresh : m.databases.lookup site = none)
    {history : List Invocation} (husable : StaysUsable site history m) :
    ∀ before i after, history = before ++ i :: after →
      i.Truthful site (afterwards before m) ∧
      (∀ naming, (sourcesAdded naming before m).Ascending) ∧
      ∀ r fullPath, Request.ofArguments i.args = .ok r → r.command = .dataSources fullPath →
        r.json = true → (i.run (afterwards before m)).1 =
          ⟨0, (sourcesAdded (if fullPath then .full else .short) before m).toJson.pretty ++ "\n", none⟩ := by
  rintro before i after rfl
  obtain ⟨hbefore, hi⟩ := husable.split
  obtain ⟨deeds, hkeeps, hlisted⟩ := afterwards_keeps (.nothing hfresh) hbefore
  rw [List.nil_append] at hkeeps
  refine ⟨?_, fun naming => ?_, fun r fullPath hr hcommand hjson => ?_⟩
  · obtain ⟨_, _, hran⟩ := Invocation.run_cases hkeeps hi
    exact hran.truthful
  · rw [← hlisted naming]
    exact hkeeps.ascending naming
  · rw [← hlisted]
    exact Invocation.run_dataSources hkeeps hi hr hcommand hjson

/-- A run on the case in the root directory. -/
def Invocation.inRoot (content : List Node) (args : List String) : Invocation :=
  ⟨⟨none, some "/", none, "d", .universal 7, FileTree.walk⟩, ⟨.dir [] 0 content, []⟩,
    args.map Text.Utf8.bytes⟩

/-- A command without its operands. -/
def misusedRun : Invocation :=
  .inRoot [] ["add-local-files", "--json"]

/-- An image of two segments. -/
def imageRun : Invocation :=
  .inRoot [] ["add-image", "/i.1", "/i.2"]

/-- The same image, but help is asked for. -/
def helpRun : Invocation :=
  .inRoot [] ["add-image", "/i.1", "--help", "/i.2"]

/-- A listing, before which a file has appeared beside the one for the database. -/
def listingRun : Invocation :=
  .inRoot [.file caseFileName 0 7, .file (Text.Utf8.bytes "f") 1 5] ["data-sources", "--json"]

/-- A machine with nothing on it. -/
def bareMachine : Machine :=
  .ofTree ⟨.dir [] 0 [], []⟩

theorem imageRun_request :
    Request.ofArguments imageRun.args = .ok ⟨none, false, .addImage none ["/i.1", "/i.2"]⟩ := by cbv

theorem helpRun_stop :
    Request.ofArguments helpRun.args = .error (.help (.command .addImage)) := by cbv

theorem listingRun_request :
    Request.ofArguments listingRun.args = .ok ⟨none, true, .dataSources false⟩ := by cbv

/-- The case can be opened as long as the file for its database is missing or empty. -/
theorem imageRun_usable (m : Machine) : imageRun.Usable [caseFileName] m := by
  intro r hr
  cases imageRun_request.symm.trans hr
  exact .of_ofTree ⟨by cbv, by cbv, fun _ => ⟨_, rfl⟩⟩

theorem listingRun_usable (m : Machine) : listingRun.Usable [caseFileName] m := by
  intro r hr
  cases listingRun_request.symm.trans hr
  exact .of_ofTree ⟨by cbv, by cbv, fun _ => ⟨_, rfl⟩⟩

theorem exit_code_truthful_image :
    StaysUsable [caseFileName] [misusedRun, helpRun, imageRun, listingRun] bareMachine ∧
      imageRun.Adds ∧ ¬ imageRun.Inquires ∧
      imageRun.Truthful [caseFileName] (afterwards [misusedRun, helpRun] bareMachine) ∧
      (imageRun.run (afterwards [misusedRun, helpRun] bareMachine)).1.code = 0 ∧
      (listingRun.run (afterwards [misusedRun, helpRun, imageRun] bareMachine)).1 =
        ⟨0, "\x7b\n  \"1\": \"i.1\"\n\x7d\n", none⟩ := by
  have hmisused : Request.ofArguments misusedRun.args = .error .misuse := by cbv
  have husable : StaysUsable [caseFileName] [misusedRun, helpRun, imageRun, listingRun] bareMachine := by
    refine ⟨fun r hr => ?_, fun r hr => ?_, imageRun_usable _, listingRun_usable _, trivial⟩
    · cases hmisused.symm.trans hr
    · cases helpRun_stop.symm.trans hr
  have hadded : sourcesAdded .short [misusedRun, helpRun, imageRun] bareMachine = [(1, "i.1")] := by cbv
  have htruth := exit_code_truthful rfl husable
  obtain ⟨himageTruthful, _, _⟩ := htruth [misusedRun, helpRun] imageRun [listingRun] rfl
  obtain ⟨_, _, hshown⟩ := htruth [misusedRun, helpRun, imageRun] listingRun [] rfl
  refine ⟨husable, (Invocation.adds_iff imageRun_request).2 rfl, Invocation.not_inquires imageRun_request,
    himageTruthful, by cbv, ?_⟩
  rw [hshown _ false listingRun_request rfl rfl]
  exact congrArg (fun names : NameMap => (⟨0, names.toJson.pretty ++ "\n", none⟩ : Exit)) hadded

/-- **A run that asks for help ends with 0 and adds nothing**, also if its command is one that adds a data
source. -/
theorem help_ends_with_zero :
    bareMachine.databases.lookup [caseFileName] = none ∧ StaysUsable [caseFileName] [helpRun] bareMachine ∧
      helpRun.Adds ∧ (helpRun.run bareMachine).1.code = 0 ∧
      ¬ ∃ id, (bareMachine.rowsAt [caseFileName]).Gains
        ((helpRun.run bareMachine).2.rowsAt [caseFileName]) [id] := by
  have husable : helpRun.Usable [caseFileName] bareMachine := by
    intro r hr
    cases helpRun_stop.symm.trans hr
  have hnamed : helpRun.command? = some .addImage := by cbv
  have hrun : (helpRun.run bareMachine).2 = helpRun.machine bareMachine :=
    Invocation.run_misread helpRun_stop bareMachine
  refine ⟨rfl, ⟨husable, trivial⟩, ⟨_, hnamed, rfl⟩, ?_, ?_⟩
  · exact (Invocation.run_inquired ⟨_, helpRun_stop, by decide⟩ bareMachine).1
  · rintro ⟨id, hgains⟩
    rw [hrun] at hgains
    cases Rows.Gains.eq_nil_of_self hgains

end Cli

end Casefile
