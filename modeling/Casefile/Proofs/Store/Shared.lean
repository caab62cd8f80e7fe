import Casefile.Proofs.Store.Contract

/-!
# The relational database among others

* `Shared` — a session with what others are about to do in it, and a log of all calls: before every call
  of one user the others get to some calls of their own.
* `Relational.among` — such a session as a `Store` for the transaction of one name.
* `Shared.Valid` — the invariant of sessions, and the ledger of the log fits.

Principal results: `Valid.yield` — what others do leaves alone what a transaction holds, and settles no
transaction but theirs.  `Relational.amongContract` — so the promises of a case database are kept among
others as well.  The contents are the transactions that have committed, each under its name and with its
deeds; by `Valid` they determine the tables.
-/

set_option autoImplicit false

namespace Casefile

/-- A session that others use at the same time. -/
structure Shared where
  session : Session Db Tx
  /-- What others do before each of the calls to come. -/
  ahead : List (List Action)
  /-- All calls so far, with their answers. -/
  log : List (Action × Answer)

namespace Shared

/-- A session at its start. -/
def start (t : Tables) (ahead : List (List Action)) : Shared :=
  ⟨.start (.ofTables t), ahead, []⟩

/-- The session after some calls. -/
def calls (actions : List Action) (sh : Shared) : Shared where
  session := (sh.session.run Relational.store actions).2
  ahead := sh.ahead
  log := sh.log ++ actions.zip (sh.session.run Relational.store actions).1

/-- Lets others get to their calls.  They do not touch the transaction `me`. -/
def yield (me : String) (sh : Shared) : Shared :=
  match sh.ahead with
  | [] => sh
  | actions :: ahead => { sh.calls (actions.filter (·.name ≠ me)) with ahead }

/-- A call, before which others get to theirs. -/
def call (me : String) (a : Action) (sh : Shared) : Answer × Shared :=
  (((sh.yield me).session.step Relational.store a).1, (sh.yield me).calls [a])

/-- What has been done, by whom. -/
def ledger (sh : Shared) : Ledger :=
  .ofLog sh.log

end Shared

/-- The answer when the transaction is no longer open. -/
def Relational.notOpen : Failure :=
  .internal "no open transaction"

namespace Answer

/-- The answer to a call that gives nothing. -/
def toDone : Answer → Reply Unit
  | .done r => r
  | _ => .failed Relational.notOpen

/-- The answer to a call that gives a data source. -/
def toContent : Answer → Reply Content
  | .content r => r
  | _ => .failed Relational.notOpen

/-- The answer to a call that gives an object. -/
def toObject : Answer → Reply ObjectId
  | .object r => r
  | _ => .failed Relational.notOpen

theorem eq_of_toDone {answer : Answer} (h : answer.toDone = .ok ()) : answer = .done (.ok ()) := by
  cases answer <;> cases h
  rfl

theorem eq_of_toContent {answer : Answer} {content : Content} (h : answer.toContent = .ok content) :
    answer = .content (.ok content) := by
  cases answer <;> cases h
  rfl

theorem eq_of_toObject {answer : Answer} {id : ObjectId} (h : answer.toObject = .ok id) :
    answer = .object (.ok id) := by
  cases answer <;> cases h
  rfl

end Answer

/-- The relational database as a store for the transaction `me`, among others. -/
def Relational.among (me : String) : Store Shared Unit where
  begin sh :=
    let (answer, sh) := sh.call me (.begin me)
    (answer.toDone, sh)
  addSource request _ sh :=
    let (answer, sh) := sh.call me (.addSource me request)
    (answer.toContent, (), sh)
  addFile request _ sh :=
    let (answer, sh) := sh.call me (.addFile me request)
    (answer.toObject, (), sh)
  addImage request _ sh :=
    let (answer, sh) := sh.call me (.addImage me request)
    (answer.toContent, (), sh)
  commit _ sh :=
    let (answer, sh) := sh.call me (.commit me)
    (answer.toDone, sh)
  rollback _ sh :=
    let (answer, sh) := sh.call me (.rollback me)
    (answer.toDone, sh)
  drop _ sh := (sh.call me (.drop me)).2
  logicalSources sh := (.ofExcept sh.session.db.logicalSources, sh)
  imageSources sh := (.ofExcept sh.session.db.imageSources, sh)

/-! ## What others do -/

/-- A call to another transaction leaves one open as it is. -/
theorem Session.find?_step_other {s : Session Db Tx} {me : String} (hi : s.Inv) {a : Action}
    (hne : me ≠ a.name) : (s.step Relational.store a).2.find? me = s.find? me := by
  have hstep := step_cases hi a
  generalize s.step Relational.store a = result at hstep ⊢
  cases hstep with
  | begun name => exact find?_after_other s _ _ hne
  | @done name tx q deed d hf hd hm =>
    have hname : me ≠ name := by
      cases q <;> exact hne
    exact find?_after_other s _ _ hname
  | @refused name tx tx' q e hf hl hno =>
    have hname : me ≠ name := by
      cases q <;> exact hne
    exact find?_after_other s _ _ hname
  | committed hf => exact find?_without_other s _ hne
  | rolledBack hf => exact find?_without_other s _ hne
  | dropped hf => exact find?_without_other s _ hne
  | absent hf hb => rfl

/-- Others have committed these transactions behind those before. -/
def CommittedByOthers (me : String) (cs cs' : List Committed) : Prop :=
  ∃ more, cs' = cs ++ more ∧ ∀ c ∈ more, c.name ≠ me

namespace CommittedByOthers

theorem refl (me : String) (cs : List Committed) : CommittedByOthers me cs cs :=
  ⟨[], (List.append_nil cs).symm, fun c hc => by cases hc⟩

theorem trans {me : String} {cs cs' cs'' : List Committed} (h : CommittedByOthers me cs cs')
    (h' : CommittedByOthers me cs' cs'') : CommittedByOthers me cs cs'' := by
  obtain ⟨more, rfl, hmore⟩ := h
  obtain ⟨more', rfl, hmore'⟩ := h'
  refine ⟨more ++ more', List.append_assoc .., fun c hc => ?_⟩
  rcases List.mem_append.1 hc with hc | hc
  · exact hmore c hc
  · exact hmore' c hc

end CommittedByOthers

namespace Ledger

variable {me : String} {a : Action}

theorem note_pending_other (l : Ledger) (hne : me ≠ a.name) (answer : Answer) :
    (l.note (a, answer)).pending me = l.pending me := by
  unfold note
  split
  · rename_i h
    cases h
    exact put_pending_other l _ hne
  · rename_i h
    cases h
    exact put_pending_other l _ hne
  · rename_i h
    cases h
    exact put_pending_other l _ hne
  · rename_i h
    cases h
    exact put_pending_other l _ hne
  · rfl
  · rfl

/-- Only a commit that succeeds settles anything. -/
theorem note_settled (l : Ledger) {answer : Answer}
    (hne : a ≠ .commit a.name ∨ answer ≠ .done (.ok ())) :
    (l.note (a, answer)).settled = l.settled := by
  unfold note
  split
  · rfl
  · rfl
  · rfl
  · rfl
  · rename_i h
    cases h
    rcases hne with hne | hne <;> exact absurd rfl hne
  · rfl

theorem note_settled_other (l : Ledger) (hne : me ≠ a.name) (answer : Answer) :
    CommittedByOthers me l.settled (l.note (a, answer)).settled := by
  by_cases hcommit : a = .commit a.name ∧ answer = .done (.ok ())
  · obtain ⟨ha, rfl⟩ := hcommit
    rw [ha]
    refine ⟨[⟨a.name, l.pending a.name⟩], rfl, fun c hc => ?_⟩
    rw [List.mem_singleton.1 hc]
    exact hne.symm
  · rw [l.note_settled (Classical.not_and_iff_not_or_not.1 hcommit)]
    exact .refl me l.settled

end Ledger

namespace Shared

/-- A session that has come about from the tables `t` by the calls of its log. -/
structure Valid (t : Tables) (sh : Shared) : Prop where
  inv : sh.session.Inv
  fits : sh.ledger.Fits t sh.session

/-- The transaction of a name is open and has done these deeds. -/
structure Holding (me : String) (deeds : List Deed) (sh : Shared) : Prop where
  isOpen : ∃ tx, sh.session.find? me = some tx
  pending : sh.ledger.pending me = deeds

variable {t : Tables} {me : String} {sh : Shared} {deeds : List Deed}

theorem start_valid (ht : t.WellFormed) (ahead : List (List Action)) : (start t ahead).Valid t :=
  ⟨Session.start_inv ht, Ledger.fits_start t⟩

theorem ledger_calls (actions : List Action) (sh : Shared) :
    (sh.calls actions).ledger =
      (actions.zip (sh.session.run Relational.store actions).1).foldl Ledger.note sh.ledger :=
  List.foldl_append ..

theorem Valid.calls (h : sh.Valid t) (actions : List Action) : (sh.calls actions).Valid t := by
  refine ⟨h.inv.run actions, ?_⟩
  rw [ledger_calls]
  exact h.fits.run actions h.inv

/-- The calls of others to a session, by what they leave alone. -/
theorem run_others :
    ∀ (actions : List Action) {s : Session Db Tx} (l : Ledger), s.Inv → (∀ a ∈ actions, me ≠ a.name) →
      (s.run Relational.store actions).2.find? me = s.find? me ∧
        ((actions.zip (s.run Relational.store actions).1).foldl Ledger.note l).pending me =
          l.pending me ∧
        CommittedByOthers me l.settled
          ((actions.zip (s.run Relational.store actions).1).foldl Ledger.note l).settled
  | [], s, l, hi, hne => ⟨rfl, rfl, .refl me l.settled⟩
  | a :: actions, s, l, hi, hne => by
    have hme : me ≠ a.name := hne a (List.mem_cons_self ..)
    obtain ⟨hfind, hpending, hsettled⟩ := run_others actions
      (l.note (a, (s.step Relational.store a).1)) (hi.step a) fun b hb => hne b (List.mem_cons_of_mem _ hb)
    refine ⟨hfind.trans (Session.find?_step_other hi hme), ?_, ?_⟩
    · exact hpending.trans (l.note_pending_other hme _)
    · exact (l.note_settled_other hme _).trans hsettled

/-- **What others do** keeps the session valid, leaves alone what a transaction holds, and settles no
transaction but theirs. -/
theorem Valid.yield (h : sh.Valid t) (me : String) :
    (sh.yield me).Valid t ∧ CommittedByOthers me sh.ledger.settled (sh.yield me).ledger.settled ∧
      ∀ deeds, sh.Holding me deeds → (sh.yield me).Holding me deeds := by
  unfold Shared.yield
  split
  · exact ⟨h, .refl me _, fun _ hh => hh⟩
  · rename_i actions ahead _
    have hne : ∀ a ∈ actions.filter (·.name ≠ me), me ≠ a.name := fun a ha => by
      have hname : a.name ≠ me := by simpa using (List.mem_filter.1 ha).2
      exact hname.symm
    have hv := h.calls (actions.filter (·.name ≠ me))
    obtain ⟨hfind, hpending, hsettled⟩ := run_others _ sh.ledger h.inv hne
    rw [← ledger_calls] at hpending hsettled
    refine ⟨⟨hv.inv, hv.fits⟩, hsettled, fun deeds hh => ⟨?_, hpending.trans hh.pending⟩⟩
    obtain ⟨tx, htx⟩ := hh.isOpen
    exact ⟨tx, hfind.trans htx⟩

/-! ## Calls of one user -/

theorem ledger_call (me : String) (a : Action) (sh : Shared) :
    (sh.call me a).2.ledger = (sh.yield me).ledger.note (a, (sh.call me a).1) :=
  ledger_calls [a] (sh.yield me)

/-- A call that commits nothing keeps the session valid. -/
theorem Valid.call (h : sh.Valid t) {a : Action}
    (hne : a ≠ .commit a.name ∨ (sh.call me a).1 ≠ .done (.ok ())) :
    (sh.call me a).2.Valid t ∧
      CommittedByOthers me sh.ledger.settled (sh.call me a).2.ledger.settled := by
  obtain ⟨hv, hothers, _⟩ := h.yield me
  refine ⟨hv.calls [a], ?_⟩
  rw [ledger_call, Ledger.note_settled _ hne]
  exact hothers

/-- A transaction that has just begun has done nothing. -/
theorem Holding.begin (h : sh.Valid t) (hanswer : (sh.call me (.begin me)).1 = .done (.ok ())) :
    (sh.call me (.begin me)).2.Holding me [] := by
  obtain ⟨hv, _, _⟩ := h.yield me
  refine ⟨⟨.fresh, ?_⟩, ?_⟩
  · show ((sh.yield me).session.step Relational.store (.begin me)).2.find? me = _
    rw [Session.step_begin hv.inv]
    exact Session.find?_after_self _ _ _ _
  · rw [ledger_call, hanswer]
    exact Ledger.put_pending_self _ _ _

/-- A request that is done adds a deed. -/
theorem Holding.call (h : sh.Valid t) (hh : sh.Holding me deeds) {deed : Deed}
    (hanswer : (sh.call me (deed.request.action me)).1 = deed.answer) :
    (sh.call me (deed.request.action me)).2.Holding me (deeds ++ [deed]) := by
  obtain ⟨_, _, hyield⟩ := h.yield me
  obtain ⟨⟨tx, hf⟩, hpending⟩ := hyield deeds hh
  refine ⟨⟨(tx.perform (sh.yield me).session.db deed.request).2.1, ?_⟩, ?_⟩
  · show ((sh.yield me).session.step Relational.store (deed.request.action me)).2.find? me = _
    rw [Session.step_request hf]
    exact Session.find?_after_self _ _ _ _
  · rw [ledger_call, hanswer, Ledger.note_done, ← hpending]
    exact Ledger.put_pending_self _ _ _

/-- A commit that succeeds settles what the transaction has done. -/
theorem Holding.commit (h : sh.Valid t) (hh : sh.Holding me deeds)
    (hanswer : (sh.call me (.commit me)).1 = .done (.ok ())) :
    (sh.call me (.commit me)).2.Valid t ∧
      ∃ cs, CommittedByOthers me sh.ledger.settled cs ∧
        (sh.call me (.commit me)).2.ledger.settled = cs ++ [⟨me, deeds⟩] := by
  obtain ⟨hv, hothers, hyield⟩ := h.yield me
  refine ⟨hv.calls [.commit me], (sh.yield me).ledger.settled, hothers, ?_⟩
  rw [ledger_call, hanswer, ← (hyield deeds hh).pending]
  rfl

end Shared

/-- The promises of a case database, kept by the relational database among others: what is in it are the
transactions that have committed. -/
def Relational.amongContract (me : String) (t : Tables) :
    (Relational.among me).Contract (List Committed) where
  contents sh := sh.ledger.settled
  Valid := Shared.Valid t
  Holds deeds _ sh := sh.Holding me deeds
  Records deeds cs cs' := cs' = cs ++ [⟨me, deeds⟩]
  Others := CommittedByOthers me
  others_refl := .refl me
  others_trans := .trans
  begin_keeps {sh} hv := hv.call (a := .begin me) (Or.inl nofun)
  begin_holds {sh tx sh'} hv hbegin := by
    obtain ⟨hanswer, rfl⟩ := Prod.mk.inj hbegin
    exact .begin hv (Answer.eq_of_toDone hanswer)
  addSource_keeps {sh tx deeds} request hv hh :=
    hv.call (a := .addSource me request) (Or.inl nofun)
  addSource_holds {sh tx deeds request content tx' sh'} hv hh hadd := by
    obtain ⟨hanswer, hrest⟩ := Prod.mk.inj hadd
    obtain ⟨_, rfl⟩ := Prod.mk.inj hrest
    have hdone : (sh.call me ((Deed.source request content).request.action me)).1 =
        (Deed.source request content).answer := Answer.eq_of_toContent hanswer
    exact hh.call hv hdone
  addFile_keeps {sh tx deeds} request hv hh := hv.call (a := .addFile me request) (Or.inl nofun)
  addFile_holds {sh tx deeds request id tx' sh'} hv hh hadd := by
    obtain ⟨hanswer, hrest⟩ := Prod.mk.inj hadd
    obtain ⟨_, rfl⟩ := Prod.mk.inj hrest
    have hdone : (sh.call me ((Deed.file request id).request.action me)).1 =
        (Deed.file request id).answer := Answer.eq_of_toObject hanswer
    exact hh.call hv hdone
  commit_ok {sh tx deeds sh'} hv hh hcommit := by
    obtain ⟨hanswer, rfl⟩ := Prod.mk.inj hcommit
    obtain ⟨hv', cs, hothers, hsettled⟩ := hh.commit hv (Answer.eq_of_toDone hanswer)
    exact ⟨hv', cs, _, hothers, hsettled, .refl me _⟩
  commit_not {sh tx} hv hne := by
    refine hv.call (a := .commit me) (Or.inr fun hdone => hne ?_)
    show Answer.toDone (sh.call me (.commit me)).1 = _
    rw [hdone]
    rfl
  rollback_keeps {sh} tx hv := hv.call (a := .rollback me) (Or.inl nofun)
  drop_keeps {sh} tx hv := hv.call (a := .drop me) (Or.inl nofun)

end Casefile
