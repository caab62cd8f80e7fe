import Casefile.Clock
import Casefile.Scan.Scanner
import Casefile.Store
import Casefile.Text.Quoted

/-!
# Taking local files in

* `Host` — what the host of a run does: when it asks for the run to stop, and which of the calls to
  it break down.
* `Ingest.scanAll` — scans all paths, before anything is written.
* `Ingest.writeAll` — records the source and the entries of all scans in one transaction.
* `Ingest.work` — the work of a run, which ends with a report unless a call breaks down.
* `Ingest.run` — a whole run: the work, and the report to the host.

Either the transaction was committed and the report holds the new source, or the report is
critical, holds one error, and the transaction left nothing behind.
-/

set_option autoImplicit false

namespace Casefile

/-- What a run tells its host at the end. -/
structure Report where
  verdict : Verdict
  errors : List String
  contents : List Content
  deriving DecidableEq, Repr

namespace Report

/-- Nothing was taken in. -/
def critical (message : String) : Report :=
  ⟨.criticalErrors, [message], []⟩

/-- A source was taken in; what could not be read is listed. -/
def added (content : Content) (errors : List String) : Report :=
  ⟨if errors = [] then .noErrors else .nonCriticalErrors, errors, [content]⟩

end Report

/-- What a run has told its host: the progress that it has shown, and how it has ended. -/
structure Progress where
  indeterminate : List Bool
  texts : List String
  done : List Report
  deriving DecidableEq, Repr

namespace Progress

/-- Nothing has been told. -/
def none : Progress :=
  ⟨[], [], []⟩

/-- Shows whether the end can be foreseen. -/
def showIndeterminate (p : Progress) (b : Bool) : Progress :=
  { p with indeterminate := p.indeterminate ++ [b] }

/-- Gives a report. -/
def deliver (p : Progress) (report : Report) : Progress :=
  { p with done := p.done ++ [report] }

end Progress

/-- The calls to a host, with the text with which one breaks down if it does. -/
structure Host where
  /-- The number of texts shown before the host asks for the run to stop. -/
  cancelAfter? : Option Nat
  onStart : Option String
  /-- The call that shows a text, which is the one of the given number counted from 1. -/
  onText : Nat → String → Option String
  onDone : Option String

namespace Host

/-- A host that neither stops the run nor breaks down. -/
def quiet : Host := ⟨none, none, fun _ _ => none, none⟩

/-- Whether the run has been asked to stop by the time it has shown so much. -/
def cancelled (h : Host) (p : Progress) : Bool :=
  match h.cancelAfter? with
  | some n => n ≤ p.texts.length
  | none => false

/-- Shows a text; the second part is the text with which the call broke down. -/
def announce (h : Host) (p : Progress) (text : String) : Progress × Option String :=
  ({ p with texts := p.texts ++ [text] }, h.onText (p.texts.length + 1) text)

end Host

namespace Ingest

def cancelledMessage : String := "Adding local files was cancelled"

/-- The account of a task that broke down. The number of the task, which means nothing to the
reader, is left out. -/
def broken (text : String) : String :=
  "task <id> panicked with message " ++ Text.quoted text

/-- Why a run ends before its time. -/
inductive Halt where
  /-- With a report of its own. -/
  | critical (message : String)
  /-- Because a call broke down. -/
  | broken (text : String)
  deriving DecidableEq, Repr

/-- How the work of a run ends: with a report, or because a call broke down with a text. -/
abbrev Ending := Except String Report

/-- The end of a run before its time. -/
def Halt.ending : Halt → Ending
  | .critical message => .ok (.critical message)
  | .broken text => .error text

/-- The report to the host. The work may have broken down without one. -/
def finalReport : Ending → Report
  | .ok report => report
  | .error text => .critical ("Adding local files failed unexpectedly: " ++ broken text)

/-- Scans all paths in order; `n` is the number of requests made before. -/
def scanAll (scanner : Scanner) (host : Host) :
    Nat → List Path → Progress → Except Halt (List Scan) × Progress
  | _, [], p => (.ok [], p)
  | n, path :: paths, p =>
    if host.cancelled p then (.error (.critical cancelledMessage), p)
    else
      match host.announce p ("Scanning: " ++ path.display) with
      | (p, some text) => (.error (.broken text), p)
      | (p, none) =>
        match scanner n path with
        | .failed e =>
          (.error (.critical ("Cannot add " ++ path.display ++ ": " ++ e.message)), p)
        | .panicked text =>
          (.error (.critical ("Scanning " ++ path.display ++ " failed: " ++ broken text)), p)
        | .ok scan =>
          match scanAll scanner host (n + 1) paths p with
          | (.ok scans, p) => (.ok (scan :: scans), p)
          | (.error h, p) => (.error h, p)

/-- How the writing of a source ends, if not with everything written. -/
inductive Setback where
  | cancelled
  | failed (e : Failure)
  | broken (text : String)
  deriving DecidableEq, Repr

/-- The answer to an entry whose parent is not an earlier entry of its scan. -/
def unknownParent (entry : Entry) (place : Nat) : Failure :=
  .internal ("Scan entry " ++ entry.path.display ++ " refers to unknown parent " ++ toString place)

/-- A run while it writes. -/
structure Writing (σ τ : Type) where
  progress : Progress
  tx : τ
  db : σ

variable {σ τ : Type}

/-- The object that an entry goes below: the source itself, or what an earlier entry became. -/
def parentId (source : ObjectId) (ids : List ObjectId) (entry : Entry) :
    Except Failure ObjectId :=
  match entry.parent with
  | none => .ok source
  | some place =>
    match ids[place]? with
    | some id => .ok id
    | none => .error (unknownParent entry place)

/-- Records the entries of a scan in order; `ids` are the objects that the earlier ones became. -/
def writeEntries (store : Store σ τ) (host : Host) (source : ObjectId) :
    List Entry → List ObjectId → Writing σ τ → Except Setback Unit × Writing σ τ
  | [], _, w => (.ok (), w)
  | entry :: entries, ids, w =>
    if host.cancelled w.progress then (.error .cancelled, w)
    else
      match host.announce w.progress ("Adding: " ++ entry.path.display) with
      | (p, some text) => (.error (.broken text), { w with progress := p })
      | (p, none) =>
        match parentId source ids entry with
        | .error e => (.error (.failed e), { w with progress := p })
        | .ok parent =>
          match store.addFile ⟨source, parent, entry⟩ w.tx w.db with
          | (.failed e, tx, db) => (.error (.failed e), ⟨p, tx, db⟩)
          | (.panicked text, tx, db) => (.error (.broken text), ⟨p, tx, db⟩)
          | (.ok id, tx, db) => writeEntries store host source entries (ids ++ [id]) ⟨p, tx, db⟩

/-- Records the entries of all scans in order. -/
def writeScans (store : Store σ τ) (host : Host) (source : ObjectId) :
    List Scan → Writing σ τ → Except Setback Unit × Writing σ τ
  | [], w => (.ok (), w)
  | scan :: scans, w =>
    match writeEntries store host source scan.entries [] w with
    | (.ok (), w) => writeScans store host source scans w
    | (.error setback, w) => (.error setback, w)

/-- The source that a run with a configuration asks for. -/
def sourceRequest (clock : Clock) (config : SourceConfig) : SourceRequest :=
  ⟨config.device, config.explicitName?, clock.timeZone, clock.now⟩

/-- Records a source with the entries of all scans. -/
def writeAll (store : Store σ τ) (host : Host) (clock : Clock) (config : SourceConfig)
    (scans : List Scan) (w : Writing σ τ) : Except Setback Content × Writing σ τ :=
  match store.addSource (sourceRequest clock config) w.tx w.db with
  | (.failed e, tx, db) => (.error (.failed e), { w with tx, db })
  | (.panicked text, tx, db) => (.error (.broken text), { w with tx, db })
  | (.ok content, tx, db) =>
    match writeScans store host content.objectId scans { w with tx, db } with
    | (.ok (), w) => (.ok content, w)
    | (.error setback, w) => (.error setback, w)

/-- The end of a transaction that cannot be completed: what a rollback answers does not matter,
unless it breaks down. -/
def abandon (store : Store σ τ) (message : String) (tx : τ) (db : σ) : Ending × σ :=
  match store.rollback tx db with
  | (.panicked text, db) => (.error text, db)
  | (_, db) => (.ok (.critical message), db)

/-- The end of a transaction. -/
def conclude (store : Store σ τ) (errors : List String) :
    Except Setback Content → τ → σ → Ending × σ
  | .ok content, tx, db =>
    match store.commit tx db with
    | (.ok (), db) => (.ok (.added content errors), db)
    | (.failed e, db) => (.ok (.critical e.message), db)
    | (.panicked text, db) => (.error text, db)
  | .error .cancelled, tx, db => abandon store cancelledMessage tx db
  | .error (.failed e), tx, db => abandon store e.message tx db
  | .error (.broken text), tx, db => (.error text, store.drop tx db)

/-- What the work of a run leaves behind. -/
structure Worked (σ : Type) where
  progress : Progress
  ending : Ending
  db : σ

/-- Writes the scans into a transaction of its own. -/
def record (store : Store σ τ) (host : Host) (clock : Clock) (config : SourceConfig)
    (scans : List Scan) (p : Progress) (db : σ) : Worked σ :=
  match store.begin db with
  | (.failed e, db) => ⟨p, .ok (.critical e.message), db⟩
  | (.panicked text, db) => ⟨p, .error text, db⟩
  | (.ok tx, db) =>
    let (written, w) := writeAll store host clock config scans ⟨p, tx, db⟩
    let (ending, db) := conclude store (scans.flatMap (·.errors)) written w.tx w.db
    ⟨w.progress, ending, db⟩

/-- The work of a run. `current` is the answer to the question for the case that is open. -/
def work (store : Store σ τ) (scanner : Scanner) (host : Host) (clock : Clock)
    (current : Reply Unit) (config : SourceConfig) (p : Progress) (db : σ) : Worked σ :=
  let p := p.showIndeterminate true
  match host.onStart with
  | some text => ⟨p, .error text, db⟩
  | none =>
    match current with
    | .failed e => ⟨p, .ok (.critical e.message), db⟩
    | .panicked text => ⟨p, .error text, db⟩
    | .ok () =>
      match scanAll scanner host 0 config.paths p with
      | (.error halt, p) => ⟨p, halt.ending, db⟩
      | (.ok scans, p) => record store host clock config scans p db

/-- What a run leaves behind. -/
structure Outcome (σ : Type) where
  progress : Progress
  report : Report
  db : σ

/-- A run: the work, and then the report to the host. -/
def run (store : Store σ τ) (scanner : Scanner) (host : Host) (clock : Clock)
    (current : Reply Unit) (config : SourceConfig) (db : σ) : Outcome σ :=
  let w := work store scanner host clock current config .none db
  let report := finalReport w.ending
  ⟨w.progress.deliver report, report, w.db⟩

/-- What waiting for the end of a run is answered with. -/
def wait (host : Host) : Except Failure Unit :=
  match host.onDone with
  | none => .ok ()
  | some text => .error (.internal ("Ingestion task failed to join: " ++ broken text))

end Ingest

end Casefile
