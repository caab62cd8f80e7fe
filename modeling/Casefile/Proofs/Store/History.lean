import Casefile.Proofs.Store.Draft
import Casefile.Proofs.Tables.Migration

/-!
# Histories of a case

A case is opened once and from then on used by any number of transactions at a time; now and then it is
opened anew.

* `Request.action`, `Deed.answer`, `Request.refusal` — requests as calls of a session, and the answers to
  them.
* `Session.Stepped` — what one call can do to a session of the relational database.
* `Session.Inv` — the committed tables are well-formed, so is every draft, and no more than one
  transaction has the write permit.
* `Event`, `history` — calls and reopenings, and the session they lead to from a fresh case.

Principal results: `step_cases` — every call is one of the ways in `Stepped`.  `history_inv` — the
invariant holds after every history.  `history_wellFormed` — so the committed tables and those that open
transactions see are well-formed at any time.
-/

set_option autoImplicit false

namespace Casefile

/-- A request as a call to the transaction of a name. -/
def Request.action (name : String) : Request → Action
  | .source request => .addSource name request
  | .file request => .addFile name request
  | .image request => .addImage name request

/-- The answer to a request that was refused. -/
def Request.refusal (e : Failure) : Request → Answer
  | .source _ => .content (.failed e)
  | .file _ => .object (.failed e)
  | .image _ => .content (.failed e)

/-- The answer to a request that was done. -/
def Deed.answer : Deed → Answer
  | .source _ content => .content (.ok content)
  | .file _ id => .object (.ok id)
  | .image _ content => .content (.ok content)

/-- The transaction that a call is for. -/
def Action.name : Action → String
  | .begin name => name
  | .addSource name _ => name
  | .addFile name _ => name
  | .addImage name _ => name
  | .commit name => name
  | .rollback name => name
  | .drop name => name

/-- A transaction that has just begun. -/
def Tx.fresh : Tx :=
  ⟨none, false, []⟩

namespace Session

/-! ## Open transactions by name -/

section Names

variable {σ τ : Type}

theorem lookup_others (s : Session σ τ) {name other : String} (hne : other ≠ name) :
    (s.others name).lookup other = s.find? other := by
  unfold others find?
  induction s.opened with
  | nil => rfl
  | cons o opened ih =>
    obtain ⟨n, tx⟩ := o
    by_cases hn : n = name
    · subst hn
      have hfalse : (other == n) = false := by simpa using hne
      simp only [List.filter_cons, ne_eq, not_true_eq_false, decide_false, List.lookup_cons, hfalse]
      exact ih
    · simp only [List.filter_cons, ne_eq, hn, not_false_eq_true, decide_true, if_true,
        List.lookup_cons]
      rw [ih]

theorem lookup_others_self (s : Session σ τ) (name : String) : (s.others name).lookup name = none := by
  rw [List.lookup_eq_none_iff]
  intro o ho
  have hne : o.1 ≠ name := by simpa using (List.mem_filter.1 ho).2
  simpa using hne.symm

@[simp] theorem find?_after_self (s : Session σ τ) (name : String) (tx : τ) (db : σ) :
    (s.after name tx db).find? name = some tx := by
  simp [after, find?]

theorem find?_after_other (s : Session σ τ) {name other : String} (tx : τ) (db : σ)
    (hne : other ≠ name) : (s.after name tx db).find? other = s.find? other := by
  have hfalse : (other == name) = false := by simpa using hne
  simp only [after, find?, List.lookup_cons, hfalse]
  exact s.lookup_others hne

@[simp] theorem find?_without_self (s : Session σ τ) (name : String) (db : σ) :
    (s.without name db).find? name = none :=
  s.lookup_others_self name

theorem find?_without_other (s : Session σ τ) {name other : String} (db : σ) (hne : other ≠ name) :
    (s.without name db).find? other = s.find? other :=
  s.lookup_others hne

end Names

/-! ## What a call can do -/

/-- The database when a transaction is about to take the place of one of the same name. -/
def vacated (s : Session Db Tx) (name : String) : Db :=
  match s.find? name with
  | some old => s.db.release old
  | none => s.db

/-- What a call does to a session, with its answer. -/
inductive Stepped (s : Session Db Tx) : Action → Answer × Session Db Tx → Prop where
  | begun (name : String) :
      Stepped s (.begin name) (.done (.ok ()), s.after name .fresh (s.vacated name))
  | done {name : String} {tx : Tx} {q : Request} {deed : Deed} {d : Draft}
      (hf : s.find? name = some tx) (hd : (tx.draft s.db).perform q = .ok (deed, d))
      (hm : tx.MayWrite s.db) :
      Stepped s (q.action name)
        (deed.answer, s.after name (tx.became s.db d) { s.db with writing := true })
  | refused {name : String} {tx tx' : Tx} {q : Request} {e : Failure} (hf : s.find? name = some tx)
      (hl : tx.Looked s.db tx')
      (hno : ∀ deed d, (tx.draft s.db).perform q = .ok (deed, d) → ¬ tx.MayWrite s.db) :
      Stepped s (q.action name) (q.refusal e, s.after name tx' s.db)
  | committed {name : String} {tx : Tx} (hf : s.find? name = some tx) :
      Stepped s (.commit name) (.done (.ok ()), s.without name (tx.commit s.db))
  | rolledBack {name : String} {tx : Tx} (hf : s.find? name = some tx) :
      Stepped s (.rollback name) (.done (.ok ()), s.without name (s.db.release tx))
  | dropped {name : String} {tx : Tx} (hf : s.find? name = some tx) :
      Stepped s (.drop name) (.done (.ok ()), s.without name (s.db.release tx))
  | absent {a : Action} (hf : s.find? a.name = none) (hb : a ≠ .begin a.name) :
      Stepped s a (.noTransaction, s)

/-! ## The invariant -/

/-- The transaction of a name has the write permit. -/
def Writes (s : Session Db Tx) (name : String) : Prop :=
  ∃ tx, s.find? name = some tx ∧ tx.wrote = true

end Session

/-- What holds of an open transaction.  As long as it has not written, it has no folders, and sees the
committed tables unless others have committed since it first looked.  Once it has written, nobody else
can commit. -/
structure Tx.Inv (db : Db) (tx : Tx) : Prop where
  draft : (tx.draft db).WellFormed
  idle : tx.wrote = false → tx.childPaths = [] ∧
    ((tx.look db).version = db.version → (tx.look db).tables = db.committed)
  busy : tx.wrote = true → tx.view?.isSome = true ∧ (tx.look db).version = db.version
  version_le : (tx.look db).version ≤ db.version

/-- What holds of a session at any time. -/
structure Session.Inv (s : Session Db Tx) : Prop where
  isOpen : s.db.closed = false
  committed : s.db.committed.WellFormed
  each : ∀ name tx, s.find? name = some tx → tx.Inv s.db
  lock : s.db.writing = true ↔ ∃ name, s.Writes name
  single : ∀ name other, s.Writes name → s.Writes other → name = other

/-- A database that differs only in the write permit. -/
structure Db.SameTables (db db' : Db) : Prop where
  committed : db'.committed = db.committed
  version : db'.version = db.version
  closed : db'.closed = db.closed

theorem Db.SameTables.refl (db : Db) : db.SameTables db := ⟨rfl, rfl, rfl⟩

theorem Db.release_sameTables (db : Db) (tx : Tx) : db.SameTables (db.release tx) := by
  unfold Db.release
  split <;> exact ⟨rfl, rfl, rfl⟩

theorem Tx.look_sameTables {db db' : Db} (h : db.SameTables db') (tx : Tx) :
    tx.look db' = tx.look db := by
  unfold Tx.look
  rw [h.committed, h.version]

theorem Tx.draft_sameTables {db db' : Db} (h : db.SameTables db') (tx : Tx) :
    tx.draft db' = tx.draft db := by
  unfold Tx.draft
  rw [Tx.look_sameTables h]

namespace Tx

variable {db db' : Db} {tx : Tx}

theorem Inv.sameTables (h : tx.Inv db) (hs : db.SameTables db') : tx.Inv db' := by
  constructor
  · rw [draft_sameTables hs]; exact h.draft
  · rw [look_sameTables hs, hs.version, hs.committed]; exact h.idle
  · rw [look_sameTables hs, hs.version]; exact h.busy
  · rw [look_sameTables hs, hs.version]; exact h.version_le

theorem fresh_inv (hc : db.committed.WellFormed) : Tx.fresh.Inv db where
  draft := ⟨hc, fun id path hl => by cases hl⟩
  idle := fun _ => ⟨rfl, fun _ => rfl⟩
  busy := fun h => by cases h
  version_le := Nat.le_refl _

theorem Inv.looked {tx' : Tx} (h : tx.Inv db) (hl : tx.Looked db tx') : tx'.Inv db := by
  rcases hl with rfl | rfl
  · exact h
  · exact ⟨h.draft, h.idle, fun hw => ⟨rfl, (h.busy hw).2⟩, h.version_le⟩

theorem Inv.became {q : Request} {deed : Deed} {d : Draft} (h : tx.Inv db)
    (hd : (tx.draft db).perform q = .ok (deed, d)) (hm : tx.MayWrite db) : (tx.became db d).Inv db where
  draft := h.draft.perform hd
  idle := fun hw => by cases hw
  busy := fun _ => by
    refine ⟨rfl, ?_⟩
    show (tx.look db).version = db.version
    rcases hm with hw | hm
    · exact (h.busy hw).2
    · exact hm.2
  version_le := h.version_le

/-- When another transaction commits, one that has not written keeps what it has looked at. -/
theorem Inv.commit {writer : Tx} (h : tx.Inv db) (hw : tx.wrote = false)
    (hc : (writer.look db).tables.WellFormed) (hwriter : writer.wrote = true) :
    tx.Inv (writer.commit db) := by
  rw [commit_of_wrote hwriter]
  obtain ⟨view?, wrote, childPaths⟩ := tx
  obtain ⟨hpaths, _⟩ := h.idle hw
  cases view? with
  | none =>
    simp only at hpaths
    subst hpaths
    exact ⟨⟨hc, fun id path hl => by cases hl⟩, fun _ => ⟨rfl, fun _ => rfl⟩,
      fun hw' => absurd hw' (by rw [hw]; decide), Nat.le_refl _⟩
  | some v =>
    have hle : v.version ≤ db.version := h.version_le
    refine ⟨h.draft, fun _ => ⟨hpaths, fun hv => ?_⟩, fun hw' => absurd hw' (by rw [hw]; decide),
      Nat.le_succ_of_le hle⟩
    have hv' : v.version = db.version + 1 := hv
    omega

end Tx

namespace Session

variable {s : Session Db Tx}

/-- The answer to a request, by how it ended. -/
def answerTo (q : Request) : Except Failure Deed → Answer
  | .ok deed => deed.answer
  | .error e => q.refusal e

theorem step_request {name : String} {tx : Tx} (hf : s.find? name = some tx) (q : Request) :
    s.step Relational.store (q.action name) =
      (answerTo q (tx.perform s.db q).1,
        s.after name (tx.perform s.db q).2.1 (tx.perform s.db q).2.2) := by
  cases q with
  | source request =>
    simp only [Request.action, step, hf, Relational.store, Tx.perform]
    rcases tx.addSource s.db request with ⟨answer | answer, tx', db'⟩ <;> rfl
  | file request =>
    simp only [Request.action, step, hf, Relational.store, Tx.perform]
    rcases tx.addFile s.db request with ⟨answer | answer, tx', db'⟩ <;> rfl
  | image request =>
    simp only [Request.action, step, hf, Relational.store, Tx.perform]
    rcases tx.addImage s.db request with ⟨answer | answer, tx', db'⟩ <;> rfl

theorem Inv.lock_of_wrote (h : s.Inv) {name : String} {tx : Tx} (hf : s.find? name = some tx)
    (hw : tx.wrote = true) : s.db.writing = true :=
  h.lock.2 ⟨name, tx, hf, hw⟩

theorem stepped_request (h : s.Inv) {name : String} {tx : Tx} (hf : s.find? name = some tx)
    (q : Request) : s.Stepped (q.action name) (s.step Relational.store (q.action name)) := by
  rw [step_request hf q]
  have hp := Tx.perform_cases (h.each name tx hf).draft (h.lock_of_wrote hf) q
  generalize tx.perform s.db q = result at hp ⊢
  cases hp with
  | done hd hm => exact .done hf hd hm
  | refused hl hno => exact .refused hf hl hno

theorem step_begin (h : s.Inv) (name : String) :
    s.step Relational.store (.begin name) =
      (.done (.ok ()), s.after name .fresh (s.vacated name)) := by
  simp only [step, Relational.store, Db.begin, Db.whileOpen, h.isOpen, vacated]
  cases s.find? name <;> rfl

/-- **Every call to a session of the relational database is one of the ways in `Stepped`.** -/
theorem step_cases (h : s.Inv) (a : Action) : s.Stepped a (s.step Relational.store a) := by
  cases hf : s.find? a.name with
  | none =>
    cases a with
    | begin name =>
      rw [step_begin h]
      exact .begun name
    | _ =>
      simp only [Action.name] at hf
      simp only [step, hf]
      exact .absent hf (by simp [Action.name])
  | some tx =>
    cases a with
    | begin name =>
      rw [step_begin h]
      exact .begun name
    | addSource name request => exact stepped_request h hf (.source request)
    | addFile name request => exact stepped_request h hf (.file request)
    | addImage name request => exact stepped_request h hf (.image request)
    | commit name =>
      replace hf : s.find? name = some tx := hf
      simp only [step, hf]
      exact .committed hf
    | rollback name =>
      replace hf : s.find? name = some tx := hf
      simp only [step, hf]
      exact .rolledBack hf
    | drop name =>
      replace hf : s.find? name = some tx := hf
      simp only [step, hf]
      exact .dropped hf

/-! ## Calls keep the invariant -/

variable {name other : String} {tx : Tx} {db : Db}

theorem writes_after_self : (s.after name tx db).Writes name ↔ tx.wrote = true := by
  simp [Writes]

theorem writes_after_other (hne : other ≠ name) : (s.after name tx db).Writes other ↔ s.Writes other := by
  unfold Writes
  rw [find?_after_other s tx db hne]

theorem not_writes_without_self : ¬ (s.without name db).Writes name := by
  simp [Writes]

theorem writes_without_other (hne : other ≠ name) : (s.without name db).Writes other ↔ s.Writes other := by
  unfold Writes
  rw [find?_without_other s db hne]

theorem writes_iff (hf : s.find? name = some tx) : s.Writes name ↔ tx.wrote = true := by
  simp [Writes, hf]

/-- Without a transaction, the permit is taken exactly if another one has it. -/
theorem Inv.lock_release (h : s.Inv) (hf : s.find? name = some tx) :
    (s.db.release tx).writing = true ↔ ∃ other, other ≠ name ∧ s.Writes other := by
  unfold Db.release
  split
  · rename_i hw
    refine ⟨fun hfalse => (by cases hfalse), fun ⟨other, hne, ho⟩ => ?_⟩
    exact absurd (h.single other name ho ⟨tx, hf, hw⟩) hne
  · rename_i hw
    rw [h.lock]
    refine ⟨fun ⟨other, ho⟩ => ⟨other, fun he => hw ?_, ho⟩, fun ⟨other, _, ho⟩ => ⟨other, ho⟩⟩
    subst he
    exact (writes_iff hf).1 ho

theorem Inv.lock_vacated (h : s.Inv) (name : String) :
    (s.vacated name).writing = true ↔ ∃ other, other ≠ name ∧ s.Writes other := by
  unfold vacated
  cases hf : s.find? name with
  | some tx => exact h.lock_release hf
  | none =>
    simp only
    rw [h.lock]
    refine ⟨fun ⟨other, ho⟩ => ⟨other, fun he => ?_, ho⟩, fun ⟨other, _, ho⟩ => ⟨other, ho⟩⟩
    subst he
    obtain ⟨tx, hsome, _⟩ := ho
    rw [hf] at hsome
    cases hsome

theorem vacated_sameTables (s : Session Db Tx) (name : String) : s.db.SameTables (s.vacated name) := by
  unfold vacated
  split
  · exact Db.release_sameTables _ _
  · exact .refl _

/-- A call that only replaces a transaction and passes the permit on keeps the invariant. -/
theorem Inv.after (h : s.Inv) (hs : s.db.SameTables db) (htx : tx.Inv db)
    (hlock : db.writing = true ↔ ∃ other, (s.after name tx db).Writes other)
    (hsole : tx.wrote = true → ∀ other, other ≠ name → ¬ s.Writes other) : (s.after name tx db).Inv where
  isOpen := hs.closed.trans h.isOpen
  committed := by
    show db.committed.WellFormed
    rw [hs.committed]
    exact h.committed
  each := fun n tx' hf => by
    by_cases hn : n = name
    · subst hn
      rw [find?_after_self] at hf
      cases hf
      exact htx
    · rw [find?_after_other s tx db hn] at hf
      exact (h.each n tx' hf).sameTables hs
  lock := hlock
  single := fun n m hwn hwm => by
    by_cases hn : n = name <;> by_cases hm : m = name
    · rw [hn, hm]
    · subst hn
      exact absurd ((writes_after_other hm).1 hwm) (hsole (writes_after_self.1 hwn) m hm)
    · subst hm
      exact absurd ((writes_after_other hn).1 hwn) (hsole (writes_after_self.1 hwm) n hn)
    · exact h.single n m ((writes_after_other hn).1 hwn) ((writes_after_other hm).1 hwm)

/-- A call that ends a transaction keeps the invariant if the others fit the database after it. -/
theorem Inv.without (h : s.Inv) (ho : db.closed = false) (hc : db.committed.WellFormed)
    (heach : ∀ other tx', other ≠ name → s.find? other = some tx' → tx'.Inv db)
    (hlock : db.writing = true ↔ ∃ other, other ≠ name ∧ s.Writes other) : (s.without name db).Inv where
  isOpen := ho
  committed := hc
  each := fun n tx' hf => by
    by_cases hn : n = name
    · subst hn
      rw [find?_without_self] at hf
      cases hf
    · rw [find?_without_other s db hn] at hf
      exact heach n tx' hn hf
  lock := by
    refine hlock.trans ⟨fun ⟨n, hne, hw⟩ => ⟨n, (writes_without_other hne).2 hw⟩, fun ⟨n, hw⟩ => ?_⟩
    by_cases hn : n = name
    · subst hn
      exact absurd hw not_writes_without_self
    · exact ⟨n, hn, (writes_without_other hn).1 hw⟩
  single := fun n m hwn hwm => by
    have hn : n ≠ name := fun he => not_writes_without_self (he ▸ hwn)
    have hm : m ≠ name := fun he => not_writes_without_self (he ▸ hwm)
    exact h.single n m ((writes_without_other hn).1 hwn) ((writes_without_other hm).1 hwm)

/-- A transaction that ends without a commit. -/
theorem Inv.release (h : s.Inv) (hf : s.find? name = some tx) :
    (s.without name (s.db.release tx)).Inv := by
  have hs := Db.release_sameTables s.db tx
  refine h.without (hs.closed.trans h.isOpen) ?_ (fun n tx' _ hn => (h.each n tx' hn).sameTables hs)
    (h.lock_release hf)
  rw [hs.committed]
  exact h.committed

theorem Inv.commit (h : s.Inv) (hf : s.find? name = some tx) : (s.without name (tx.commit s.db)).Inv := by
  cases hw : tx.wrote with
  | false =>
    have hsame : s.db.release tx = s.db := by
      unfold Db.release
      rw [hw]
      rfl
    rw [Tx.commit_of_idle hw, ← hsame]
    exact h.release hf
  | true =>
    have htables : (tx.look s.db).tables.WellFormed := (h.each name tx hf).draft.tables
    have hdb : tx.commit s.db = _ := Tx.commit_of_wrote hw
    have hsole : ∀ other, other ≠ name → ¬ s.Writes other := fun other hne ho =>
      hne (h.single other name ho ⟨tx, hf, hw⟩)
    refine h.without ?_ ?_ (fun n tx' hne hn => ?_) ?_
    · rw [hdb]; exact h.isOpen
    · rw [hdb]; exact htables
    · have hidle : tx'.wrote = false := by
        cases hw' : tx'.wrote with
        | false => rfl
        | true => exact absurd ⟨tx', hn, hw'⟩ (hsole n hne)
      exact (h.each n tx' hn).commit hidle htables hw
    · rw [hdb]
      refine ⟨fun hfalse => (by cases hfalse), fun ⟨n, hne, hn⟩ => absurd hn (hsole n hne)⟩

/-- **Every call keeps the invariant.** -/
theorem Inv.step (h : s.Inv) (a : Action) : (s.step Relational.store a).2.Inv := by
  have hstep := step_cases h a
  generalize s.step Relational.store a = result at hstep ⊢
  cases hstep with
  | begun name =>
    have hs := vacated_sameTables s name
    have hc : (s.vacated name).committed.WellFormed := hs.committed ▸ h.committed
    refine h.after hs (Tx.fresh_inv hc) ?_ (fun hw => by cases hw)
    rw [h.lock_vacated]
    refine ⟨fun ⟨n, hne, hn⟩ => ⟨n, (writes_after_other hne).2 hn⟩, fun ⟨n, hn⟩ => ?_⟩
    by_cases he : n = name
    · subst he
      cases writes_after_self.1 hn
    · exact ⟨n, he, (writes_after_other he).1 hn⟩
  | @done name tx q deed d hf hd hm =>
    have hs : s.db.SameTables { s.db with writing := true } := ⟨rfl, rfl, rfl⟩
    refine h.after hs (((h.each name tx hf).became hd hm).sameTables hs) ?_ (fun _ n hne hn => ?_)
    · exact ⟨fun _ => ⟨name, writes_after_self.2 rfl⟩, fun _ => rfl⟩
    · rcases hm with hw | ⟨hfree, _⟩
      · exact hne (h.single n name hn ⟨tx, hf, hw⟩)
      · rw [h.lock.2 ⟨n, hn⟩] at hfree
        cases hfree
  | @refused name tx tx' q e hf hl hno =>
    refine h.after (.refl _) ((h.each name tx hf).looked hl) ?_ (fun hw n hne hn => ?_)
    · rw [h.lock]
      refine ⟨fun ⟨n, hn⟩ => ⟨n, ?_⟩, fun ⟨n, hn⟩ => ⟨n, ?_⟩⟩ <;> by_cases he : n = name
      · subst he
        exact writes_after_self.2 (hl.wrote_eq.trans ((writes_iff hf).1 hn))
      · exact (writes_after_other he).2 hn
      · subst he
        exact (writes_iff hf).2 (hl.wrote_eq.symm.trans (writes_after_self.1 hn))
      · exact (writes_after_other he).1 hn
    · exact hne (h.single n name hn ⟨tx, hf, hl.wrote_eq.symm.trans hw⟩)
  | committed hf => exact h.commit hf
  | rolledBack hf => exact h.release hf
  | dropped hf => exact h.release hf
  | absent hf hb => exact h

/-! ## Histories -/

theorem start_inv {t : Tables} (ht : t.WellFormed) : (start (Db.ofTables t)).Inv where
  isOpen := rfl
  committed := ht
  each := fun n tx hf => by cases hf
  lock := ⟨fun hfalse => (by cases hfalse), fun ⟨_, _, hf, _⟩ => by cases hf⟩
  single := fun n m ⟨_, hf, _⟩ => by cases hf

/-- The calls of a list, one after another. -/
theorem Inv.run : ∀ (actions : List Action) {s : Session Db Tx}, s.Inv →
    (s.run Relational.store actions).2.Inv
  | [], _, h => h
  | a :: actions, _, h => Inv.run actions (h.step a)

/-- Opens the database anew, without the transactions that were open. -/
def reopen (now : Int) (s : Session Db Tx) : Session Db Tx :=
  match (s.dropAll Relational.store).db.reopen now with
  | .ok db => start db
  | .error _ => s.dropAll Relational.store

theorem dropAll_committed (s : Session Db Tx) :
    (s.dropAll Relational.store).db.committed = s.db.committed := by
  unfold dropAll
  suffices ∀ (opened : List (String × Tx)) (db : Db),
      (opened.foldl (fun db o => Relational.store.drop o.2 db) db).committed = db.committed from
    this s.opened s.db
  intro opened
  induction opened with
  | nil => intro db; rfl
  | cons o opened ih =>
    intro db
    rw [List.foldl_cons, ih]
    exact (Db.release_sameTables db o.2).committed

/-- Opening well-formed tables anew changes nothing in them. -/
theorem Inv.reopen_eq (h : s.Inv) (now : Int) :
    s.reopen now = start (Db.ofTables s.db.committed) := by
  have hopen : (s.dropAll Relational.store).db.reopen now = .ok (Db.ofTables s.db.committed) := by
    unfold Db.reopen
    rw [dropAll_committed, Db.migrate_of_wellFormed h.committed]
  unfold reopen
  rw [hopen]

end Session

/-- What can happen to a case. -/
inductive Event where
  | call (a : Action)
  | reopen (now : Int)
  deriving DecidableEq, Repr

namespace Session

/-- The session after an event. -/
def occur (s : Session Db Tx) : Event → Session Db Tx
  | .call a => (s.step Relational.store a).2
  | .reopen now => s.reopen now

theorem Inv.occur {s : Session Db Tx} (h : s.Inv) (e : Event) : (s.occur e).Inv := by
  cases e with
  | call a => exact h.step a
  | reopen now =>
    show (s.reopen now).Inv
    rw [h.reopen_eq]
    exact start_inv h.committed

end Session

/-- The session after a history of a case that was opened for the first time at `now`. -/
def history (now : Int) (events : List Event) : Session Db Tx :=
  events.foldl Session.occur (.start (.ofTables (.fresh now)))

/-- **The invariant holds after every history.** -/
theorem history_inv (now : Int) (events : List Event) : (history now events).Inv := by
  unfold history
  suffices ∀ s : Session Db Tx, s.Inv → (events.foldl Session.occur s).Inv from
    this _ (Session.start_inv (Tables.fresh_wellFormed now))
  induction events with
  | nil => exact fun s h => h
  | cons e events ih => exact fun s h => ih _ (h.occur e)

/-- **A case database is well-formed at any time**: what is committed, and what each open transaction sees,
whether or not it has written. -/
theorem history_wellFormed (now : Int) (events : List Event) :
    (history now events).db.committed.WellFormed ∧
      ∀ name tx, (history now events).find? name = some tx →
        (tx.look (history now events).db).tables.WellFormed := by
  have h := history_inv now events
  exact ⟨h.committed, fun name tx hf => (h.each name tx hf).draft.tables⟩

/-- A directory at the top of a scan. -/
def folderEntry (name : String) : Entry :=
  ⟨.ofString ("/in/" ++ name), name, .directory, 0, none, none⟩

/-- A file below the first entry of a scan. -/
def fileEntry (name : String) (size : Nat) : Entry :=
  ⟨.ofString ("/in/" ++ name), name, .file, size, some 1700000000, some 0⟩

/-- A history with refusals: an unknown parent, a file that is too large, an image without segments and a
file as parent; a rollback, after which ids are used again; and a case opened anew. -/
def eventful : List Event :=
  [.call (.begin "a"), .call (.addSource "a" ⟨⟨"dev"⟩, none, "+00:00", 5⟩),
    .call (.addFile "a" ⟨1, 7, fileEntry "x" 1⟩), .call (.addFile "a" ⟨1, 1, folderEntry "docs"⟩),
    .call (.addFile "a" ⟨1, 2, fileEntry "big" (Tx.maxSize + 1)⟩), .call (.rollback "a"),
    .call (.begin "b"), .call (.addImage "b" ⟨⟨"dev"⟩, [], "+00:00", 5⟩),
    .call (.addImage "b" ⟨⟨"dev"⟩, ["d.001", "d.002"], "+00:00", 5⟩), .call (.commit "b"),
    .reopen 9, .call (.begin "a"), .call (.addSource "a" ⟨⟨"dev"⟩, some "Case 1", "+00:00", 5⟩),
    .call (.addFile "a" ⟨2, 2, fileEntry "x" 1⟩), .call (.addFile "a" ⟨2, 3, fileEntry "y" 1⟩),
    .call (.commit "a"), .call (.begin "c"), .call (.addSource "c" ⟨⟨"dev"⟩, none, "+00:00", 5⟩)]

theorem history_wellFormed_eventful :
    ∃ tx, (history 0 eventful).find? "c" = some tx ∧ tx.wrote = true ∧
      (tx.look (history 0 eventful).db).tables.rows.objects.map (·.id) = [1, 2, 3, 4] ∧
      (tx.look (history 0 eventful).db).tables.WellFormed :=
  ⟨_, rfl, rfl, rfl, (history_wellFormed 0 eventful).2 "c" _ rfl⟩

end Casefile
