import Casefile.Ingest
import Casefile.Proofs.Store.Shared

/-!
# A run takes everything in, or nothing

* `Scanned` — what a scanner answered to the paths of a run.
* `EntryDeeds`, `ScanDeeds` — the deeds that stand for the entries of scans: one file for each in order, below
  the source or what its parent has become.
* `Kept` — what no call of a run changes: no report is given before the end, and nothing of what is
  written can be seen.
* `Store.Contract.TookIn`, `Store.Contract.LeftOut` — the two ways in which a run ends.

Principal results: `writeAll_keeps` — writing the scans keeps all of `Kept`, and if it gets to the end the
transaction holds the source and all entries.  `run_all_or_nothing` — whatever the host, the scanner and the
database do, a run gives exactly one report, and ends in exactly one of the two ways.
-/

set_option autoImplicit false

namespace Casefile

/-! ## Scans and what stands for them -/

/-- What a scanner answers to the requests for some paths; `n` requests were made before. -/
def Scanned (scanner : Scanner) : Nat → List Path → List Scan → Prop
  | _, [], scans => scans = []
  | n, path :: paths, scans =>
    ∃ scan rest, scans = scan :: rest ∧ scanner n path = .ok scan ∧ Scanned scanner (n + 1) paths rest

/-- The deeds that stand for the entries of a scan; `ids` are the objects that the earlier ones became. -/
def EntryDeeds (source : ObjectId) : List ObjectId → List Entry → List Deed → Prop
  | _, [], deeds => deeds = []
  | ids, e :: entries, deeds =>
    ∃ parent id rest, Ingest.parentId source ids e = .ok parent ∧
      deeds = .file ⟨source, parent, e⟩ id :: rest ∧ EntryDeeds source (ids ++ [id]) entries rest

/-- The deeds that stand for the entries of all scans. -/
def ScanDeeds (source : ObjectId) : List Scan → List Deed → Prop
  | [], deeds => deeds = []
  | scan :: scans, deeds =>
    ∃ first rest, deeds = first ++ rest ∧ EntryDeeds source [] scan.entries first ∧
      ScanDeeds source scans rest

/-! ## What the calls of a run keep -/

section Keeping

variable {σ τ κ : Type} {store : Store σ τ} {scanner : Scanner} {host : Host}

theorem announce_done {p p' : Progress} {text : String} {broken? : Option String}
    (h : host.announce p text = (p', broken?)) : p'.done = p.done :=
  (congrArg (fun r : Progress × Option String => r.1.done) h).symm

/-- Scanning gives no report, and gets to the end only with an answer to every path. -/
theorem scanAll_keeps :
    ∀ (paths : List Path) {n : Nat} {p p' : Progress} {result : Except Ingest.Halt (List Scan)},
      Ingest.scanAll scanner host n paths p = (result, p') →
      p'.done = p.done ∧ ∀ scans, result = .ok scans → Scanned scanner n paths scans
  | [], n, p, p', result, h => by
    cases h
    exact ⟨rfl, fun scans hs => by cases hs; rfl⟩
  | path :: paths, n, p, p', result, h => by
    unfold Ingest.scanAll at h
    split at h
    · cases h
      exact ⟨rfl, fun scans hs => by cases hs⟩
    · split at h
      · rename_i hannounce
        cases h
        exact ⟨announce_done hannounce, fun scans hs => by cases hs⟩
      · rename_i q hannounce
        have hdone : q.done = p.done := announce_done hannounce
        split at h
        · cases h
          exact ⟨hdone, fun scans hs => by cases hs⟩
        · cases h
          exact ⟨hdone, fun scans hs => by cases hs⟩
        · rename_i scan hscan
          split at h
          · rename_i rest q' hrest
            cases h
            obtain ⟨hdone', hscanned⟩ := scanAll_keeps paths hrest
            refine ⟨hdone'.trans hdone, fun scans hs => ?_⟩
            cases hs
            exact ⟨scan, rest, rfl, hscan, hscanned rest rfl⟩
          · rename_i halt q' hrest
            cases h
            obtain ⟨hdone', _⟩ := scanAll_keeps paths hrest
            exact ⟨hdone'.trans hdone, fun scans hs => by cases hs⟩

variable (c : store.Contract κ)

/-- What stays as it is while a run writes: no report is given, and of what is written nothing can be
seen. -/
structure Kept (w w' : Ingest.Writing σ τ) : Prop where
  done : w'.progress.done = w.progress.done
  valid : c.Valid w'.db
  others : c.Others (c.contents w.db) (c.contents w'.db)

variable {c}

theorem Kept.trans {w w' w'' : Ingest.Writing σ τ} (h : Kept c w w') (h' : Kept c w' w'') :
    Kept c w w'' :=
  ⟨h'.done.trans h.done, h'.valid, c.others_trans h.others h'.others⟩

/-- Only the progress is another. -/
theorem Kept.showing {w : Ingest.Writing σ τ} (hv : c.Valid w.db) {p : Progress}
    (hp : p.done = w.progress.done) : Kept c w { w with progress := p } :=
  ⟨hp, hv, c.others_refl _⟩

/-- Writing the entries of a scan keeps what is to be kept; if it gets to the end, the transaction holds
one more deed for each. -/
theorem writeEntries_keeps {source : ObjectId} :
    ∀ (entries : List Entry) {ids : List ObjectId} {deeds : List Deed} {w w' : Ingest.Writing σ τ}
      {result : Except Ingest.Setback Unit}, c.Valid w.db → c.Holds deeds w.tx w.db →
      Ingest.writeEntries store host source entries ids w = (result, w') →
      Kept c w w' ∧ (result = .ok () → ∃ new, EntryDeeds source ids entries new ∧
        c.Holds (deeds ++ new) w'.tx w'.db)
  | [], ids, deeds, w, w', result, hv, hh, hrun => by
    cases hrun
    refine ⟨.showing hv rfl, fun _ => ⟨[], rfl, ?_⟩⟩
    rw [List.append_nil]
    exact hh
  | e :: entries, ids, deeds, w, w', result, hv, hh, hrun => by
    unfold Ingest.writeEntries at hrun
    split at hrun
    · cases hrun
      exact ⟨.showing hv rfl, fun hr => by cases hr⟩
    · split at hrun
      · rename_i hannounce
        cases hrun
        exact ⟨.showing hv (announce_done hannounce), fun hr => by cases hr⟩
      · rename_i p hannounce
        have hdone : p.done = w.progress.done := announce_done hannounce
        split at hrun
        · cases hrun
          exact ⟨.showing hv hdone, fun hr => by cases hr⟩
        · rename_i parent hparent
          have hkeeps := c.addFile_keeps ⟨source, parent, e⟩ hv hh
          split at hrun
          · rename_i hadd
            rw [hadd] at hkeeps
            cases hrun
            exact ⟨⟨hdone, hkeeps.1, hkeeps.2⟩, fun hr => by cases hr⟩
          · rename_i hadd
            rw [hadd] at hkeeps
            cases hrun
            exact ⟨⟨hdone, hkeeps.1, hkeeps.2⟩, fun hr => by cases hr⟩
          · rename_i id tx db hadd
            rw [hadd] at hkeeps
            have hw : Kept c w ⟨p, tx, db⟩ := ⟨hdone, hkeeps.1, hkeeps.2⟩
            obtain ⟨hkept, hend⟩ :=
              writeEntries_keeps entries hkeeps.1 (c.addFile_holds hv hh hadd) hrun
            refine ⟨hw.trans hkept, fun hr => ?_⟩
            obtain ⟨new, hnew, hholds⟩ := hend hr
            refine ⟨_, ⟨parent, id, new, hparent, rfl, hnew⟩, ?_⟩
            rw [List.append_assoc] at hholds
            exact hholds

/-- The same for all scans. -/
theorem writeScans_keeps {source : ObjectId} :
    ∀ (scans : List Scan) {deeds : List Deed} {w w' : Ingest.Writing σ τ}
      {result : Except Ingest.Setback Unit}, c.Valid w.db → c.Holds deeds w.tx w.db →
      Ingest.writeScans store host source scans w = (result, w') →
      Kept c w w' ∧ (result = .ok () → ∃ new, ScanDeeds source scans new ∧
        c.Holds (deeds ++ new) w'.tx w'.db)
  | [], deeds, w, w', result, hv, hh, hrun => by
    cases hrun
    refine ⟨.showing hv rfl, fun _ => ⟨[], rfl, ?_⟩⟩
    rw [List.append_nil]
    exact hh
  | scan :: scans, deeds, w, w', result, hv, hh, hrun => by
    unfold Ingest.writeScans at hrun
    split at hrun
    · rename_i w₁ hentries
      obtain ⟨hkept, hend⟩ := writeEntries_keeps scan.entries hv hh hentries
      obtain ⟨first, hfirst, hholds⟩ := hend rfl
      obtain ⟨hkept', hend'⟩ := writeScans_keeps scans hkept.valid hholds hrun
      refine ⟨hkept.trans hkept', fun hr => ?_⟩
      obtain ⟨rest, hrest, hholds'⟩ := hend' hr
      refine ⟨first ++ rest, ⟨first, rest, rfl, hfirst, hrest⟩, ?_⟩
      rw [← List.append_assoc]
      exact hholds'
    · rename_i setback w₁ hentries
      cases hrun
      exact ⟨(writeEntries_keeps scan.entries hv hh hentries).1, fun hr => by cases hr⟩

/-- **Writing a source with its scans** keeps what is to be kept; if it gets to the end, the transaction
holds the source and all entries. -/
theorem writeAll_keeps {clock : Clock} {config : SourceConfig} {scans : List Scan}
    {w w' : Ingest.Writing σ τ} {result : Except Ingest.Setback Content} (hv : c.Valid w.db)
    (hh : c.Holds [] w.tx w.db)
    (hrun : Ingest.writeAll store host clock config scans w = (result, w')) :
    Kept c w w' ∧ ∀ content, result = .ok content → ∃ deeds,
      ScanDeeds content.objectId scans deeds ∧
        c.Holds (.source (Ingest.sourceRequest clock config) content :: deeds) w'.tx w'.db := by
  have hkeeps := c.addSource_keeps (Ingest.sourceRequest clock config) hv hh
  unfold Ingest.writeAll at hrun
  split at hrun
  · rename_i hadd
    rw [hadd] at hkeeps
    cases hrun
    exact ⟨⟨rfl, hkeeps.1, hkeeps.2⟩, fun content hr => by cases hr⟩
  · rename_i hadd
    rw [hadd] at hkeeps
    cases hrun
    exact ⟨⟨rfl, hkeeps.1, hkeeps.2⟩, fun content hr => by cases hr⟩
  · rename_i content tx db hadd
    rw [hadd] at hkeeps
    have hw : Kept c w { w with tx, db } := ⟨rfl, hkeeps.1, hkeeps.2⟩
    have hholds := c.addSource_holds hv hh hadd
    split at hrun
    · rename_i w₁ hscans
      cases hrun
      obtain ⟨hkept, hend⟩ := writeScans_keeps scans hkeeps.1 hholds hscans
      refine ⟨hw.trans hkept, fun content' hr => ?_⟩
      cases hr
      exact hend rfl
    · rename_i setback w₁ hscans
      cases hrun
      obtain ⟨hkept, _⟩ := writeScans_keeps scans hkeeps.1 hholds hscans
      exact ⟨hw.trans hkept, fun content' hr => by cases hr⟩

end Keeping

/-! ## How a run ends -/

namespace Store.Contract

variable {σ τ κ : Type} {store : Store σ τ} (c : store.Contract κ)

/-- A source was taken in.  The report shows it as the one content, and lists what could not be read;
exactly the source and the entries of all scans were added to the contents. -/
def TookIn (scanner : Scanner) (clock : Clock) (config : SourceConfig) (report : Report) (old new : κ) :
    Prop :=
  ∃ scans content deeds k k', Scanned scanner 0 config.paths scans ∧
    ScanDeeds content.objectId scans deeds ∧
    report.contents = [content] ∧ report.errors = scans.flatMap (·.errors) ∧
    (report.verdict = .noErrors ∧ report.errors = [] ∨
      report.verdict = .nonCriticalErrors ∧ report.errors ≠ []) ∧
    c.Others old k ∧ c.Records (.source (Ingest.sourceRequest clock config) content :: deeds) k k' ∧
    c.Others k' new

/-- Nothing was taken in.  The report is critical, with one message and no contents. -/
def LeftOut (report : Report) (old new : κ) : Prop :=
  report.verdict = .criticalErrors ∧ (∃ message, report.errors = [message]) ∧ report.contents = [] ∧
    c.Others old new

end Store.Contract

section Ending

variable {σ τ κ : Type} {store : Store σ τ} {c : store.Contract κ} {scanner : Scanner} {host : Host}
  {clock : Clock} {config : SourceConfig}

/-- The database after an end, and the report that goes with it, if what was committed before is `old`. -/
structure Ended (c : store.Contract κ) (scanner : Scanner) (clock : Clock) (config : SourceConfig)
    (old : κ) (ending : Ingest.Ending) (db : σ) : Prop where
  valid : c.Valid db
  way : c.TookIn scanner clock config (Ingest.finalReport ending) old (c.contents db) ∨
    c.LeftOut (Ingest.finalReport ending) old (c.contents db)

/-- An end with a critical report after calls that have committed nothing. -/
theorem Ended.critical {old k : κ} {ending : Ingest.Ending} {message : String} {db : σ}
    (hreport : Ingest.finalReport ending = .critical message) (hold : c.Others old k)
    (hkeeps : c.Valid db ∧ c.Others k (c.contents db)) :
    Ended c scanner clock config old ending db := by
  refine ⟨hkeeps.1, Or.inr ?_⟩
  rw [hreport]
  exact ⟨rfl, ⟨message, rfl⟩, rfl, c.others_trans hold hkeeps.2⟩

/-- A report of what was added is one of the two that are not critical. -/
theorem tookIn_added {scans : List Scan} {content : Content} {deeds : List Deed} {old k k' new : κ}
    (hscans : Scanned scanner 0 config.paths scans) (hdeeds : ScanDeeds content.objectId scans deeds)
    (hold : c.Others old k)
    (hrec : c.Records (.source (Ingest.sourceRequest clock config) content :: deeds) k k')
    (hnew : c.Others k' new) :
    c.TookIn scanner clock config (.added content (scans.flatMap (·.errors))) old new := by
  refine ⟨scans, content, deeds, k, k', hscans, hdeeds, rfl, rfl, ?_, hold, hrec, hnew⟩
  unfold Report.added
  by_cases he : scans.flatMap (·.errors) = []
  · exact Or.inl ⟨if_pos he, he⟩
  · exact Or.inr ⟨if_neg he, he⟩

/-- The verdicts of the two ways differ. -/
theorem Store.Contract.TookIn.verdict_ne {report : Report} {old new : κ}
    (h : c.TookIn scanner clock config report old new) : report.verdict ≠ .criticalErrors := by
  obtain ⟨_, _, _, _, _, _, _, _, _, hverdict, _⟩ := h
  rcases hverdict with ⟨hv, _⟩ | ⟨hv, _⟩ <;> rw [hv] <;> decide

theorem abandon_ends {db : σ} {tx : τ} (hv : c.Valid db) (message : String) {old : κ}
    (hold : c.Others old (c.contents db)) :
    Ended c scanner clock config old (Ingest.abandon store message tx db).1
      (Ingest.abandon store message tx db).2 := by
  have hkeeps := c.rollback_keeps tx hv
  unfold Ingest.abandon
  split <;> rename_i hrollback <;> rw [hrollback] at hkeeps <;> exact .critical rfl hold hkeeps

/-- The end of a transaction, however far the writing has got. -/
theorem conclude_ends {db : σ} {tx : τ} (hv : c.Valid db) {old : κ}
    (hold : c.Others old (c.contents db)) {scans : List Scan}
    {written : Except Ingest.Setback Content} (hscans : Scanned scanner 0 config.paths scans)
    (hwritten : ∀ content, written = .ok content → ∃ deeds, ScanDeeds content.objectId scans deeds ∧
      c.Holds (.source (Ingest.sourceRequest clock config) content :: deeds) tx db) :
    Ended c scanner clock config old
      (Ingest.conclude store (scans.flatMap (·.errors)) written tx db).1
      (Ingest.conclude store (scans.flatMap (·.errors)) written tx db).2 := by
  cases written with
  | error setback =>
    cases setback with
    | cancelled => exact abandon_ends hv _ hold
    | failed e => exact abandon_ends hv _ hold
    | broken text => exact .critical rfl hold (c.drop_keeps tx hv)
  | ok content =>
    simp only [Ingest.conclude]
    by_cases hok : (store.commit tx db).1 = .ok ()
    · have hcommit : store.commit tx db = (.ok (), (store.commit tx db).2) := Prod.ext hok rfl
      obtain ⟨deeds, hdeeds, hholds⟩ := hwritten content rfl
      obtain ⟨hvalid, k, k', hk, hrec, hk'⟩ := c.commit_ok hv hholds hcommit
      rw [hcommit]
      exact ⟨hvalid, Or.inl (tookIn_added hscans hdeeds (c.others_trans hold hk) hrec hk')⟩
    · have hkeeps := c.commit_not hv hok
      split <;> rename_i hcommit <;> rw [hcommit] at hok hkeeps
      · exact absurd rfl hok
      · exact .critical rfl hold hkeeps
      · exact .critical rfl hold hkeeps

/-- The writing of a run gives no report, and comes to an end of its own. -/
theorem record_ends (host : Host) {db : σ} (hv : c.Valid db) {scans : List Scan} (p : Progress)
    (hscans : Scanned scanner 0 config.paths scans) {w : Ingest.Worked σ}
    (hrun : Ingest.record store host clock config scans p db = w) :
    w.progress.done = p.done ∧ Ended c scanner clock config (c.contents db) w.ending w.db := by
  have hbegin := c.begin_keeps hv
  unfold Ingest.record at hrun
  split at hrun
  · rename_i e db₁ hb
    rw [hb] at hbegin
    rw [← hrun]
    exact ⟨rfl, .critical rfl (c.others_refl _) hbegin⟩
  · rename_i text db₁ hb
    rw [hb] at hbegin
    rw [← hrun]
    exact ⟨rfl, .critical rfl (c.others_refl _) hbegin⟩
  · rename_i tx db₁ hb
    have hholds := c.begin_holds hv hb
    rw [hb] at hbegin
    generalize hall : Ingest.writeAll store host clock config scans ⟨p, tx, db₁⟩ = result at hrun
    obtain ⟨written, w₁⟩ := result
    obtain ⟨hkept, hend⟩ := writeAll_keeps hbegin.1 hholds hall
    rw [← hrun]
    exact ⟨hkept.done, conclude_ends hkept.valid (c.others_trans hbegin.2 hkept.others) hscans hend⟩

/-- So does its work as a whole. -/
theorem work_ends (scanner : Scanner) (host : Host) (clock : Clock) (config : SourceConfig) {db : σ}
    (hv : c.Valid db) (current : Reply Unit) (p : Progress) {w : Ingest.Worked σ}
    (hrun : Ingest.work store scanner host clock current config p db = w) :
    w.progress.done = p.done ∧ Ended c scanner clock config (c.contents db) w.ending w.db := by
  have hnothing : c.Valid db ∧ c.Others (c.contents db) (c.contents db) := ⟨hv, c.others_refl _⟩
  simp only [Ingest.work] at hrun
  split at hrun
  · rw [← hrun]
    exact ⟨rfl, .critical rfl (c.others_refl _) hnothing⟩
  · split at hrun
    · rw [← hrun]
      exact ⟨rfl, .critical rfl (c.others_refl _) hnothing⟩
    · rw [← hrun]
      exact ⟨rfl, .critical rfl (c.others_refl _) hnothing⟩
    · split at hrun
      · rename_i halt q hscan
        obtain ⟨hdone, _⟩ := scanAll_keeps config.paths hscan
        rw [← hrun]
        cases halt <;> exact ⟨hdone, .critical rfl (c.others_refl _) hnothing⟩
      · rename_i scans q hscan
        obtain ⟨hdone, hscanned⟩ := scanAll_keeps config.paths hscan
        obtain ⟨hdone', hend⟩ := record_ends host hv q (hscanned scans rfl) hrun
        exact ⟨hdone'.trans hdone, hend⟩

/-- **A run takes everything in, or nothing, and its report tells which.**  Whatever the host, the scanner,
the open case and the database do at any moment, the host is given exactly one report.  Either it shows
the new source, and exactly that source with the entries of all scans was added; or it is critical, and
nothing was added.  What others commit meanwhile stays apart from this. -/
theorem run_all_or_nothing (c : store.Contract κ) (scanner : Scanner) (host : Host) (clock : Clock)
    (current : Reply Unit) (config : SourceConfig) (db : σ) (hv : c.Valid db) :
    let outcome := Ingest.run store scanner host clock current config db
    let tookIn := c.TookIn scanner clock config outcome.report (c.contents db) (c.contents outcome.db)
    let leftOut := c.LeftOut outcome.report (c.contents db) (c.contents outcome.db)
    outcome.progress.done = [outcome.report] ∧ c.Valid outcome.db ∧
      (tookIn ∧ ¬ leftOut ∨ leftOut ∧ ¬ tookIn) := by
  intro outcome tookIn leftOut
  obtain ⟨hdone, hvalid, hend⟩ := work_ends scanner host clock config hv current .none rfl
  have hnot : ¬ (tookIn ∧ leftOut) := fun ⟨htook, hleft⟩ => htook.verdict_ne hleft.1
  refine ⟨?_, hvalid, ?_⟩
  · show (Ingest.work store scanner host clock current config .none db).progress.done ++ _ = _
    rw [hdone]
    rfl
  · rcases hend with htook | hleft
    · exact Or.inl ⟨htook, fun hleft => hnot ⟨htook, hleft⟩⟩
    · exact Or.inr ⟨hleft, fun htook => hnot ⟨htook, hleft⟩⟩

/-- A scan of a directory with one file. -/
def docsScan : Scan :=
  ⟨[folderEntry "docs", fileEntry "x" 1], ["/in/docs/y: Permission denied (os error 13)"]⟩

/-- Another transaction that commits a source before the run begins its own. -/
def otherFirst : Shared :=
  .start (.fresh 0) [[.begin "other",
    .addSource "other" ⟨⟨"dev"⟩, some "theirs", "+00:00", 5⟩, .commit "other"]]

theorem run_all_or_nothing_among_others :
    let store := (Relational.among "run").withFaults [⟨.addFile, 2, .panic "disk gone"⟩]
    let outcome := Ingest.run store (fun _ _ => .ok docsScan) .quiet (.universal 7) (.ok ())
      ⟨⟨"dev"⟩, "Case 2", [.ofString "/in/docs"]⟩ (.start otherFirst)
    outcome.progress.done.map (·.verdict) = [.criticalErrors] ∧
      outcome.db.inner.ledger.settled.map (·.name) = ["other"] ∧
      CommittedByOthers "run" [] outcome.db.inner.ledger.settled := by
  intro store outcome
  obtain ⟨hdone, _, hend⟩ := run_all_or_nothing
    ((Relational.amongContract "run" (.fresh 0)).withFaults [⟨.addFile, 2, .panic "disk gone"⟩])
    (fun _ _ => .ok docsScan) .quiet (.universal 7) (.ok ())
    ⟨⟨"dev"⟩, "Case 2", [.ofString "/in/docs"]⟩ (.start otherFirst)
    (Shared.start_valid (Tables.fresh_wellFormed 0) _)
  have hverdict : outcome.report.verdict = .criticalErrors := by decide
  refine ⟨?_, by decide, ?_⟩
  · show outcome.progress.done.map (·.verdict) = _
    rw [show outcome.progress.done = [outcome.report] from hdone, List.map_singleton, hverdict]
  · rcases hend with ⟨htook, _⟩ | ⟨hleft, _⟩
    · exact absurd hverdict htook.verdict_ne
    · exact hleft.2.2.2

end Ending

end Casefile
