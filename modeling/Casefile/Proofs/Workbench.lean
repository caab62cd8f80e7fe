import Casefile.Proofs.Processor
import Casefile.Store.Memory

/-!
# Calls to a processor

* `PanelEdit`, `Workbench.Call` — what a host can do with a panel, a processor and the case that is open.
* `Call.perform` — the answer to a call, and the workbench after it.
* `Workbench.after`, `Workbench.log` — the workbench after some calls, and the calls with their answers.
* `Renews` — a reset, or options that were taken.
* `Workbench.Lawful` — how the processor of a workbench answers the next call, whichever it is.

Principal results: `perform_turn` — what a call does to the processor.  `after_keeps`, `after_renewed` — what
calls without and with a renewal among them do to it.  `processor_lawful` — two runs go by the same configuration
if and only if there is no renewal between them, and otherwise by configurations for different devices.
-/

set_option autoImplicit false

namespace Casefile

/-- What a host can do with a panel. -/
inductive PanelEdit where
  | contentPaths (text : String)
  | paths (paths : List Path)
  | fileSetName (name : String)
  | reset

def PanelEdit.apply (p : Panel) : PanelEdit → Panel
  | contentPaths text => p.setContentPaths text
  | paths ps => p.setPaths ps
  | fileSetName name => p.setFileSetName name
  | reset => .empty

/-- A call of a host, to the panel, to the processor or about the case that is open. -/
inductive Workbench.Call where
  | edit (e : PanelEdit)
  | reset
  | cancel
  | setOptions (text : String)
  | run (host : Host)
  | runWith (host : Host) (device rootName : String) (paths : List Path)
  | openCase (label : CaseLabel)
  | closeCase

/-- What a call gives. -/
inductive Workbench.Answer where
  | done
  | ran (record : RunRecord)
  | refused (e : Failure)

namespace Workbench

variable {σ τ : Type}

/-- The answer to a call, and the workbench after it. -/
def Call.perform (s : Surroundings σ τ) (w : Workbench σ) : Call → Answer × Workbench σ
  | .edit e => (.done, { w with processor := { w.processor with panel := e.apply w.processor.panel } })
  | .reset => (.done, { w with processor := w.processor.reset })
  | .cancel => (.done, { w with processor := w.processor.cancel })
  | .setOptions text =>
    match w.processor.setOptions s.ids text with
    | (.ok _, processor) => (.done, { w with processor })
    | (.error e, processor) => (.refused e, { w with processor })
  | .run host =>
    match w.run s host with
    | (.ok record, w) => (.ran record, w)
    | (.error e, w) => (.refused e, w)
  | .runWith host device rootName paths =>
    match w.runWith s host device rootName paths with
    | (.ok record, w) => (.ran record, w)
    | (.error fault, w) => (.refused (.domain fault), w)
  | .openCase label => (.done, w.openCase label)
  | .closeCase => (.done, w.closeCase.2)

/-- A reset, or options that were taken. -/
inductive Renews : Call × Answer → Prop
  | reset : Renews (.reset, .done)
  | setOptions (text : String) : Renews (.setOptions text, .done)

/-- The workbench after some calls. -/
def after (s : Surroundings σ τ) (w : Workbench σ) (calls : List Call) : Workbench σ :=
  calls.foldl (fun w call => (call.perform s w).2) w

/-- Some calls with their answers. -/
def log (s : Surroundings σ τ) (w : Workbench σ) : List Call → List (Call × Answer)
  | [] => []
  | call :: calls => (call, (call.perform s w).1) :: log s (call.perform s w).2 calls

variable {s : Surroundings σ τ} {w : Workbench σ}

/-! ## One call -/

theorem perform_setOptions (text : String) :
    (Call.setOptions text).perform s w =
      match w.processor.configure s.ids "" (splitPaths text) with
      | (.ok _, processor) => (.done, { w with processor })
      | (.error e, processor) => (.refused e, { w with processor }) := rfl

theorem perform_run (host : Host) :
    (Call.run host).perform s w =
      match w.processor.configForRun s.ids with
      | (.ok config, processor) =>
        (.ran (({ w with processor } : Workbench σ).ingest s host config).1,
          (({ w with processor } : Workbench σ).ingest s host config).2)
      | (.error e, processor) => (.refused e, { w with processor }) := by
  have hrun : (Call.run host).perform s w =
      match w.run s host with
      | (.ok record, w) => (.ran record, w)
      | (.error e, w) => (.refused e, w) := rfl
  rw [hrun, run]
  rcases w.processor.configForRun s.ids with ⟨_ | _, _⟩ <;> rfl

theorem runWith_processor (host : Host) (device rootName : String) (paths : List Path) :
    (w.runWith s host device rootName paths).2.processor = w.processor := by
  unfold runWith
  cases DeviceId.ofString device with
  | error fault => rfl
  | ok device =>
    simp only
    cases SourceConfig.create device rootName paths <;> rfl

theorem perform_runWith_processor (host : Host) (device rootName : String) (paths : List Path) :
    ((Call.runWith host device rootName paths).perform s w).2.processor = w.processor := by
  have hrun : (Call.runWith host device rootName paths).perform s w =
      match w.runWith s host device rootName paths with
      | (.ok record, w) => (.ran record, w)
      | (.error fault, w) => (.refused (.domain fault), w) := rfl
  have hkeep := runWith_processor (s := s) (w := w) host device rootName paths
  rw [hrun]
  generalize w.runWith s host device rootName paths = result at hkeep ⊢
  rcases result with ⟨_ | _, _⟩ <;> exact hkeep

/-- **How a run goes**: by the configuration that there is, or by a new one for what the panel asks for, unless
it asks for nothing. -/
theorem perform_run_cases (hids : s.ids.Valid) (host : Host) (w : Workbench σ) :
    (∃ record, ((Call.run host).perform s w).1 = .ran record ∧
        w.processor.configured? = some record.config ∧
        ((Call.run host).perform s w).2.processor = w.processor) ∨
      (∃ record, ((Call.run host).perform s w).1 = .ran record ∧ w.processor.configured? = none ∧
        w.processor.panel.paths ≠ [] ∧
        record.config =
          ⟨⟨s.ids w.processor.drawn⟩, w.processor.panel.fileSetName, w.processor.panel.paths⟩ ∧
        ((Call.run host).perform s w).2.processor = w.processor.settle record.config) ∨
      ∃ e, ((Call.run host).perform s w).1 = .refused e ∧ w.processor.configured? = none ∧
        w.processor.panel.paths = [] ∧ ((Call.run host).perform s w).2.processor = w.processor := by
  rw [perform_run, Processor.configForRun_eq (hids w.processor.drawn)]
  cases hlatch : w.processor.configured? with
  | some config => exact .inl ⟨_, rfl, rfl, rfl⟩
  | none =>
    right
    by_cases hpaths : w.processor.panel.paths = []
    · rw [if_pos hpaths]
      exact .inr ⟨_, rfl, rfl, hpaths, rfl⟩
    · rw [if_neg hpaths]
      exact .inl ⟨_, rfl, rfl, hpaths, rfl, rfl⟩

/-- How options are taken: by a new configuration, unless they ask for nothing. -/
theorem perform_setOptions_cases (hids : s.ids.Valid) (text : String) (w : Workbench σ) :
    (((Call.setOptions text).perform s w).1 = .done ∧ splitPaths text ≠ [] ∧
        ((Call.setOptions text).perform s w).2.processor =
          w.processor.settle ⟨⟨s.ids w.processor.drawn⟩, "", splitPaths text⟩) ∨
      ∃ e, ((Call.setOptions text).perform s w).1 = .refused e ∧ splitPaths text = [] ∧
        ((Call.setOptions text).perform s w).2.processor =
          { w.processor with drawn := w.processor.drawn + 1 } := by
  rw [perform_setOptions, Processor.configure_eq (hids w.processor.drawn)]
  by_cases hpaths : splitPaths text = []
  · rw [if_pos hpaths]
    exact .inr ⟨_, rfl, hpaths, rfl⟩
  · rw [if_neg hpaths]
    exact .inl ⟨rfl, hpaths, rfl⟩

/-- **What a call does to the processor**: its configuration is kept, or settled anew. -/
theorem perform_turn (hids : s.ids.Valid) (call : Call) (w : Workbench σ) :
    Processor.Turn s.ids w.processor (call.perform s w).2.processor := by
  cases call with
  | edit e => exact .keeps rfl (Nat.le_refl _)
  | reset => exact .renews (Processor.settledSince_reset s.ids w.processor)
  | cancel => exact .keeps rfl (Nat.le_refl _)
  | setOptions text =>
    rcases perform_setOptions_cases hids text w with ⟨_, _, hsettled⟩ | ⟨_, _, _, hkeep⟩
    · exact .renews (hsettled ▸ Processor.settledSince_settle w.processor rfl)
    · rw [hkeep]
      exact .keeps rfl (Nat.le_succ _)
  | run host =>
    rcases perform_run_cases hids host w with
      ⟨_, _, _, hkeep⟩ | ⟨_, _, _, _, hconfig, hsettled⟩ | ⟨_, _, _, _, hkeep⟩
    · rw [hkeep]
      exact .keeps rfl (Nat.le_refl _)
    · exact .renews (hsettled ▸ Processor.settledSince_settle w.processor (hconfig ▸ rfl))
    · rw [hkeep]
      exact .keeps rfl (Nat.le_refl _)
  | runWith host device rootName paths =>
    rw [perform_runWith_processor]
    exact .keeps rfl (Nat.le_refl _)
  | openCase label => exact .keeps rfl (Nat.le_refl _)
  | closeCase => exact .keeps rfl (Nat.le_refl _)

/-- How the processor of a workbench answers the next call, whichever it is. -/
structure Lawful (s : Surroundings σ τ) (w : Workbench σ) : Prop where
  /-- A run goes by the configuration that there is. -/
  run_settled : ∀ host config, w.processor.configured? = some config →
    ∃ record, ((Call.run host).perform s w).1 = .ran record ∧ record.config = config
  /-- Where there is none, it goes by what the panel asks for at that moment. -/
  run_unsettled : ∀ host record, w.processor.configured? = none →
    ((Call.run host).perform s w).1 = .ran record →
      record.config.paths = w.processor.panel.paths ∧
        record.config.rootName = w.processor.panel.fileSetName
  /-- What it goes by is the configuration from then on. -/
  run_settles : ∀ host record, ((Call.run host).perform s w).1 = .ran record →
    ((Call.run host).perform s w).2.processor.configured? = some record.config
  /-- It is refused exactly when there is no configuration and the panel asks for nothing. -/
  run_refused : ∀ host, (∃ e, ((Call.run host).perform s w).1 = .refused e) ↔
    w.processor.configured? = none ∧ Pathless w.processor.panel.contentPaths
  /-- Options are refused exactly when they ask for nothing. -/
  setOptions_refused : ∀ text, (∃ e, ((Call.setOptions text).perform s w).1 = .refused e) ↔ Pathless text
  /-- A call that is refused leaves the configuration as it was. -/
  refused_keeps : ∀ (call : Call) e, (call.perform s w).1 = .refused e →
    (call.perform s w).2.processor.configured? = w.processor.configured?
  /-- An edit of the panel leaves the configuration as it was. -/
  edit_keeps : ∀ (e : PanelEdit), ((Call.edit e).perform s w).2.processor.configured? = w.processor.configured?
  /-- A run with settings of its own leaves the configuration and the panel as they were. -/
  runWith_keeps : ∀ host device rootName paths,
    ((Call.runWith host device rootName paths).perform s w).2.processor = w.processor
  /-- So does a request to stop. -/
  cancel_keeps : (Call.cancel.perform s w).2.processor = w.processor

/-- **Every call is answered lawfully.** -/
theorem lawful (hids : s.ids.Valid) (w : Workbench σ) : w.Lawful s where
  run_settled host config hlatch := by
    rcases perform_run_cases hids host w with
      ⟨record, hran, hsome, _⟩ | ⟨_, _, hnone, _⟩ | ⟨_, _, hnone, _⟩
    · exact ⟨record, hran, Option.some.inj (hsome.symm.trans hlatch)⟩
    · cases hnone.symm.trans hlatch
    · cases hnone.symm.trans hlatch
  run_unsettled host record hlatch hran := by
    rcases perform_run_cases hids host w with
      ⟨_, _, hsome, _⟩ | ⟨record', hran', _, _, hconfig, _⟩ | ⟨e, hrefused, _⟩
    · cases hlatch.symm.trans hsome
    · cases hran.symm.trans hran'
      rw [hconfig]
      exact ⟨rfl, rfl⟩
    · cases hran.symm.trans hrefused
  run_settles host record hran := by
    rcases perform_run_cases hids host w with
      ⟨record', hran', hsome, hkeep⟩ | ⟨record', hran', _, _, _, hsettled⟩ | ⟨e, hrefused, _⟩
    · cases hran.symm.trans hran'
      rw [hkeep]
      exact hsome
    · cases hran.symm.trans hran'
      rw [hsettled]
      rfl
    · cases hran.symm.trans hrefused
  run_refused host := by
    rw [← splitPaths_eq_nil_iff]
    rcases perform_run_cases hids host w with
      ⟨record, hran, hsome, _⟩ | ⟨record, hran, _, hpaths, _⟩ | ⟨e, hrefused, hnone, hpaths, _⟩
    · simp [hran, hsome]
    · have hpaths' : splitPaths w.processor.panel.contentPaths ≠ [] := hpaths
      simp [hran, hpaths']
    · exact ⟨fun _ => ⟨hnone, hpaths⟩, fun _ => ⟨e, hrefused⟩⟩
  setOptions_refused text := by
    rw [← splitPaths_eq_nil_iff]
    rcases perform_setOptions_cases hids text w with ⟨hdone, hpaths, _⟩ | ⟨e, hrefused, hpaths, _⟩
    · simp [hdone, hpaths]
    · exact ⟨fun _ => hpaths, fun _ => ⟨e, hrefused⟩⟩
  refused_keeps call e hrefused := by
    cases call with
    | edit _ => cases hrefused
    | reset => cases hrefused
    | cancel => rfl
    | setOptions text =>
      rcases perform_setOptions_cases hids text w with ⟨hdone, _⟩ | ⟨_, _, _, hkeep⟩
      · cases hdone.symm.trans hrefused
      · rw [hkeep]
    | run host =>
      rcases perform_run_cases hids host w with ⟨_, hran, _⟩ | ⟨_, hran, _⟩ | ⟨_, _, _, _, hkeep⟩
      · cases hran.symm.trans hrefused
      · cases hran.symm.trans hrefused
      · rw [hkeep]
    | runWith host device rootName paths => rw [perform_runWith_processor]
    | openCase _ => rfl
    | closeCase => rfl
  edit_keeps _ := rfl
  runWith_keeps := perform_runWith_processor
  cancel_keeps := rfl

/-- A call that renews nothing leaves a configuration as it was. -/
theorem perform_keeps (hids : s.ids.Valid) (call : Call) {config : SourceConfig}
    (hlatch : w.processor.configured? = some config) (hnot : ¬ Renews (call, (call.perform s w).1)) :
    (call.perform s w).2.processor.configured? = some config := by
  cases call with
  | edit _ => exact hlatch
  | reset => exact absurd .reset hnot
  | cancel => exact hlatch
  | setOptions text =>
    rcases perform_setOptions_cases hids text w with ⟨hdone, _⟩ | ⟨_, _, _, hkeep⟩
    · rw [hdone] at hnot
      exact absurd (.setOptions text) hnot
    · rw [hkeep]
      exact hlatch
  | run host =>
    obtain ⟨record, hran, rfl⟩ := (lawful hids w).run_settled host config hlatch
    exact (lawful hids w).run_settles host record hran
  | runWith host device rootName paths =>
    rw [perform_runWith_processor]
    exact hlatch
  | openCase _ => exact hlatch
  | closeCase => exact hlatch

/-- After a renewal there is no configuration but one under an id drawn by it or later. -/
theorem perform_renews (hids : s.ids.Valid) (call : Call) (h : Renews (call, (call.perform s w).1)) :
    Processor.SettledSince s.ids w.processor.drawn (call.perform s w).2.processor := by
  cases call with
  | reset => exact Processor.settledSince_reset s.ids w.processor
  | setOptions text =>
    rcases perform_setOptions_cases hids text w with ⟨_, _, hsettled⟩ | ⟨e, hrefused, _⟩
    · rw [hsettled]
      exact Processor.settledSince_settle w.processor rfl
    · rw [hrefused] at h
      cases h
  | _ => cases h

/-! ## Many calls -/

/-- An entry of the log is one of the calls, with the answer to it on the workbench after those before. -/
theorem log_eq_append {calls : List Call} {before after : List (Call × Answer)} {call : Call}
    {answer : Answer} (h : w.log s calls = before ++ (call, answer) :: after) :
    ∃ pre post, before = w.log s pre ∧ (call.perform s (w.after s pre)).1 = answer ∧
      after = ((call.perform s (w.after s pre)).2).log s post ∧
      w.after s calls = ((call.perform s (w.after s pre)).2).after s post := by
  induction before generalizing w calls with
  | nil =>
    cases calls with
    | nil => cases h
    | cons first post =>
      cases h
      exact ⟨[], post, rfl, rfl, rfl, rfl⟩
  | cons entry before ih =>
    cases calls with
    | nil => cases h
    | cons first calls =>
      obtain ⟨hentry, hrest⟩ := List.cons.inj h
      obtain ⟨pre, post, hbefore, hanswer, hafter, hend⟩ := ih hrest
      exact ⟨first :: pre, post, by rw [← hentry, hbefore]; rfl, hanswer, hafter, hend⟩

/-- **Without a renewal a configuration stays as it is.** -/
theorem after_keeps (hids : s.ids.Valid) {calls : List Call} {config : SourceConfig}
    (hlatch : w.processor.configured? = some config) (hnot : ∀ entry ∈ w.log s calls, ¬ Renews entry) :
    (w.after s calls).processor.configured? = some config := by
  induction calls generalizing w with
  | nil => exact hlatch
  | cons call calls ih =>
    obtain ⟨hcall, hcalls⟩ := List.forall_mem_cons.1 hnot
    exact ih (perform_keeps hids call hlatch hcall) hcalls

theorem after_drawn_le (hids : s.ids.Valid) (calls : List Call) (w : Workbench σ) :
    w.processor.drawn ≤ (w.after s calls).processor.drawn := by
  induction calls generalizing w with
  | nil => exact Nat.le_refl _
  | cons call calls ih => exact (perform_turn hids call w).drawn_le.trans (ih _)

/-- What was settled after some draws stays so. -/
theorem after_settledSince (hids : s.ids.Valid) (calls : List Call) {m : Nat}
    (h : Processor.SettledSince s.ids m w.processor) :
    Processor.SettledSince s.ids m (w.after s calls).processor := by
  induction calls generalizing w with
  | nil => exact h
  | cons call calls ih => exact ih ((perform_turn hids call w).settledSince h)

/-- **With a renewal among some calls** there is no configuration but one under an id drawn by them or later. -/
theorem after_renewed (hids : s.ids.Valid) {calls : List Call} {entry : Call × Answer}
    (hmem : entry ∈ w.log s calls) (hrenews : Renews entry) :
    Processor.SettledSince s.ids w.processor.drawn (w.after s calls).processor := by
  obtain ⟨before, after, hlog⟩ := List.append_of_mem hmem
  obtain ⟨call, answer⟩ := entry
  obtain ⟨pre, post, _, rfl, _, hend⟩ := log_eq_append hlog
  rw [hend]
  exact after_settledSince hids post
    ((perform_renews hids call hrenews).of_le (after_drawn_le hids pre w))

/-! ## Two runs -/

section TwoRuns

variable {host host' : Host} {record record' : RunRecord} {calls : List Call}

/-- Two runs without a renewal between them go by the same configuration. -/
theorem config_eq_of_not_renewed (hids : s.ids.Valid) (hran : ((Call.run host).perform s w).1 = .ran record)
    (hran' : ((Call.run host').perform s (((Call.run host).perform s w).2.after s calls)).1 = .ran record')
    (hnot : ∀ entry ∈ ((Call.run host).perform s w).2.log s calls, ¬ Renews entry) :
    record.config = record'.config := by
  have hlatch := after_keeps hids ((lawful hids w).run_settles host record hran) hnot
  obtain ⟨record'', hran'', hconfig⟩ := (lawful hids _).run_settled host' _ hlatch
  cases hran'.symm.trans hran''
  exact hconfig.symm

/-- Two runs with a renewal between them go by configurations for different devices. -/
theorem device_ne_of_renewed (hids : s.ids.Valid) (hnew : Function.Injective s.ids) {m : Nat}
    (hw : Processor.SettledSince s.ids m w.processor)
    (hran : ((Call.run host).perform s w).1 = .ran record)
    (hran' : ((Call.run host').perform s (((Call.run host).perform s w).2.after s calls)).1 = .ran record')
    {entry : Call × Answer} (hmem : entry ∈ ((Call.run host).perform s w).2.log s calls)
    (hrenews : Renews entry) : record.config.device ≠ record'.config.device := by
  intro hdevice
  -- the id of the first run was drawn before the renewal, that of the second one by it or later
  have hfirst := (perform_turn hids (.run host) w).settledSince hw
  obtain ⟨k, _, hlt, hk⟩ := hfirst.device _ ((lawful hids w).run_settles host record hran)
  have hsecond := (perform_turn hids (.run host') _).settledSince (after_renewed hids hmem hrenews)
  obtain ⟨k', hle, _, hk'⟩ := hsecond.device _ ((lawful hids _).run_settles host' record' hran')
  rw [hk, hk'] at hdevice
  have hsame : k = k' := hnew (DeviceId.mk.inj hdevice)
  omega

end TwoRuns

/-- In a log, two runs by the panel go by the same configuration if and only if there is no renewal between
them, and otherwise by configurations for different devices. -/
def Latched (log : List (Call × Answer)) : Prop :=
  ∀ (before between after : List (Call × Answer)) (host host' : Host) (record record' : RunRecord),
    log = before ++ (.run host, .ran record) :: (between ++ (.run host', .ran record') :: after) →
      (record.config = record'.config ↔ ∀ entry ∈ between, ¬ Renews entry) ∧
        (record.config ≠ record'.config → record.config.device ≠ record'.config.device)

/-- **Every log is latched**, if no id is drawn twice. -/
theorem latched (hids : s.ids.Valid) (hnew : Function.Injective s.ids) {m : Nat}
    (hw : Processor.SettledSince s.ids m w.processor) (calls : List Call) : Latched (w.log s calls) := by
  intro before between after host host' record record' hlog
  obtain ⟨pre, rest, _, hran, hrest, _⟩ := log_eq_append hlog
  obtain ⟨mid, post, rfl, hran', _, _⟩ := log_eq_append hrest.symm
  have hsame := config_eq_of_not_renewed hids hran hran'
  have hother : ∀ entry ∈ ((Call.run host).perform s (w.after s pre)).2.log s mid, Renews entry →
      record.config.device ≠ record'.config.device := fun entry hmem hrenews =>
    device_ne_of_renewed hids hnew (after_settledSince hids pre hw) hran hran' hmem hrenews
  constructor
  · refine ⟨fun hconfig entry hmem hrenews => ?_, hsame⟩
    exact hother entry hmem hrenews (congrArg SourceConfig.device hconfig)
  · intro hne
    by_cases hrenewed : ∃ entry ∈ ((Call.run host).perform s (w.after s pre)).2.log s mid, Renews entry
    · obtain ⟨entry, hmem, hrenews⟩ := hrenewed
      exact hother entry hmem hrenews
    · refine absurd (hsame fun entry hmem hrenews => ?_) hne
      exact hrenewed ⟨entry, hmem, hrenews⟩

end Workbench

/-- A database in memory, no local files and numbered ids. -/
def bareSurroundings : Surroundings MemoryDb MemoryTx where
  store := Memory.store
  faults := []
  scanner := .scripted []
  ids := .numbered
  clock := .universal 0

/-- Two runs with an edit of the panel and refused options between them, and another one after a reset. -/
def threeRuns : List Workbench.Call :=
  [.edit (.contentPaths "/a"), .run .quiet, .edit (.contentPaths "/b"), .setOptions " ,", .run .quiet,
    .reset, .edit (.contentPaths "/b"), .run .quiet]

end Casefile
