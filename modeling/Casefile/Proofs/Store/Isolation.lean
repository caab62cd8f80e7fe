import Casefile.Proofs.Store.Simulation

/-!
# Transactions of the database in memory at the same time

* `Answer.id?`, `isCommit`, `isRollback` — what a call has handed out, and whether it has ended a
  transaction.
* `Session.MemoryStepped` — what one call can do to a session of the database in memory.
* `Ledger.Stages` — the database holds the rows of what is settled, and every open transaction those of its
  own deeds.
* `Ledger.Apart`, `Ledger.Gone` — deeds of which each belongs to one transaction; a deed that belongs to
  none any more.  Both are kept by what a call can do to the deeds (`Ledger.Noted`).

Principal results: `memory_step_cases` — every call is one of the ways in `MemoryStepped`.
`Isolates.step`, `isolates_run` — calls keep the invariant.  `memory_isolates` — so what can be seen at any
time is what has been committed, one transaction behind the other; no call but a commit changes it.
-/

set_option autoImplicit false

namespace Casefile

/-- The id that an answer hands out. -/
def Answer.id? : Answer → Option ObjectId
  | .content (.ok recorded) => some recorded.objectId
  | .object (.ok id) => some id
  | _ => none

/-- The call committed a transaction. -/
def isCommit : Action × Answer → Bool
  | (.commit _, .done (.ok ())) => true
  | _ => false

/-- The call rolled a transaction back. -/
def isRollback : Action × Answer → Bool
  | (.rollback _, .done (.ok ())) => true
  | _ => false

/-- The call lets go of what the transaction of a name has done. -/
def Action.Abandons (a : Action) (name : String) : Prop :=
  a = .rollback name ∨ a = .drop name ∨ a = .begin name

/-- The name of the file that was recorded. -/
def Deed.fileName? : Deed → Option String
  | .file request _ => some request.entry.name
  | _ => none

theorem Deed.id?_answer (deed : Deed) : deed.answer.id? = some deed.id := by
  cases deed <;> rfl

theorem isCommit_deed (deed : Deed) (name : String) :
    isCommit (deed.request.action name, deed.answer) = false := by
  cases deed <;> rfl

theorem isRollback_deed (deed : Deed) (name : String) :
    isRollback (deed.request.action name, deed.answer) = false := by
  cases deed <;> rfl

theorem Request.request_deed (count : Nat) (id : ObjectId) (q : Request) :
    (q.deed count id).request = q := by
  cases q <;> rfl

theorem MemoryRows.ofDeeds_files (deeds : List Deed) :
    (ofDeeds deeds).files.map (·.name) = deeds.filterMap Deed.fileName? := by
  induction deeds using List.reverseRecOn with
  | nil => rfl
  | append_singleton deeds deed ih =>
    rw [ofDeeds_snoc, List.filterMap_append, ← ih]
    cases deed <;> simp [append, ofDeed, Deed.fileName?]

namespace Session

/-! ## What a call can do -/

/-- A request that is done is answered with the deed. -/
theorem step_of_perform {σ τ : Type} {store : Store σ τ} {s : Session σ τ} {name : String} {tx tx' : τ}
    {db' : σ} {q : Request} {deed : Deed} (hf : s.find? name = some tx)
    (h : store.perform q tx s.db = (.ok deed, tx', db')) :
    s.step store (q.action name) = (deed.answer, s.after name tx' db') := by
  cases q with
  | source request =>
    rcases hadd : store.addSource request tx s.db with ⟨answer, tx₁, db₁⟩
    simp only [Store.perform, hadd] at h
    simp only [Request.action, step, hf, hadd]
    cases answer <;> cases h
    rfl
  | file request =>
    rcases hadd : store.addFile request tx s.db with ⟨answer, tx₁, db₁⟩
    simp only [Store.perform, hadd] at h
    simp only [Request.action, step, hf, hadd]
    cases answer <;> cases h
    rfl
  | image request =>
    rcases hadd : store.addImage request tx s.db with ⟨answer, tx₁, db₁⟩
    simp only [Store.perform, hadd] at h
    simp only [Request.action, step, hf, hadd]
    cases answer <;> cases h
    rfl

/-- What a call does to a session of the database in memory, with its answer. -/
inductive MemoryStepped (s : Session MemoryDb MemoryTx) :
    Action → Answer × Session MemoryDb MemoryTx → Prop where
  | begun (name : String) :
      MemoryStepped s (.begin name) (.done (.ok ()), s.after name ⟨⟨[], [], []⟩⟩ s.db)
  | done {name : String} {tx : MemoryTx} {deed : Deed} (hf : s.find? name = some tx)
      (hid : deed.id = (s.db.lastId : Int) + 1) :
      MemoryStepped s (deed.request.action name)
        (deed.answer, s.after name ⟨tx.staged.append (.ofDeed deed)⟩
          { s.db with lastId := s.db.lastId + 1 })
  | committed {name : String} {tx : MemoryTx} (hf : s.find? name = some tx) :
      MemoryStepped s (.commit name) (.done (.ok ()), s.without name (tx.commit s.db))
  | rolledBack {name : String} {tx : MemoryTx} (hf : s.find? name = some tx) :
      MemoryStepped s (.rollback name)
        (.done (.ok ()), s.without name { s.db with rollbacks := s.db.rollbacks + 1 })
  | dropped {name : String} {tx : MemoryTx} (hf : s.find? name = some tx) :
      MemoryStepped s (.drop name) (.done (.ok ()), s.without name s.db)
  | absent {a : Action} (hf : s.find? a.name = none) (hb : a ≠ .begin a.name) :
      MemoryStepped s a (.noTransaction, s)

variable {s : Session MemoryDb MemoryTx} {name : String} {tx : MemoryTx}

theorem memory_stepped_request (hf : s.find? name = some tx) (q : Request) :
    s.MemoryStepped (q.action name) (s.step Memory.store (q.action name)) := by
  have hperform := Memory.perform_eq q tx s.db
  rw [step_of_perform hf hperform]
  generalize hdeed : q.deed _ _ = deed at hperform ⊢
  have hq : deed.request = q := hdeed ▸ Request.request_deed _ _ q
  have hid : deed.id = (s.db.lastId : Int) + 1 := hdeed ▸ Request.deed_id _ _ q
  subst hq
  exact .done hf hid

/-- **Every call to a session of the database in memory is one of the ways in `MemoryStepped`.** -/
theorem memory_step_cases (s : Session MemoryDb MemoryTx) (a : Action) :
    s.MemoryStepped a (s.step Memory.store a) := by
  cases hf : s.find? a.name with
  | none =>
    cases a with
    | begin name =>
      simp only [Action.name] at hf
      simp only [step, Memory.store, hf]
      exact .begun name
    | _ =>
      simp only [Action.name] at hf
      simp only [step, hf]
      exact .absent hf (by simp [Action.name])
  | some tx =>
    cases a with
    | begin name =>
      simp only [Action.name] at hf
      simp only [step, Memory.store, hf]
      exact .begun name
    | addSource name request => exact memory_stepped_request hf (.source request)
    | addFile name request => exact memory_stepped_request hf (.file request)
    | addImage name request => exact memory_stepped_request hf (.image request)
    | commit name =>
      replace hf : s.find? name = some tx := hf
      simp only [step, hf]
      exact .committed hf
    | rollback name =>
      replace hf : s.find? name = some tx := hf
      simp only [step, hf]
      exact .rolledBack hf
    | drop name =>
      replace hf : s.find? name = some tx := hf
      simp only [step, hf]
      exact .dropped hf

/-! ## Open transactions -/

section Opened

variable {σ τ : Type} {s : Session σ τ} {name other : String} {tx : τ} {db : σ} {P : String → τ → Prop}

/-- What holds of the transaction called, and of the others that were open before, holds of all. -/
theorem forall_after (hself : P name tx) (h : ∀ n tx', n ≠ name → s.find? n = some tx' → P n tx') :
    ∀ n tx', (s.after name tx db).find? n = some tx' → P n tx' := by
  intro n tx' hf
  by_cases hn : n = name
  · subst hn
    rw [find?_after_self] at hf
    cases hf
    exact hself
  · rw [find?_after_other s tx db hn] at hf
    exact h n tx' hn hf

theorem forall_without (h : ∀ n tx', n ≠ name → s.find? n = some tx' → P n tx') :
    ∀ n tx', (s.without name db).find? n = some tx' → P n tx' := by
  intro n tx' hf
  by_cases hn : n = name
  · subst hn
    rw [find?_without_self] at hf
    cases hf
  · rw [find?_without_other s db hn] at hf
    exact h n tx' hn hf

end Opened

end Session

namespace Ledger

variable {l : Ledger} {s : Session MemoryDb MemoryTx} {name other : String} {tx : MemoryTx}
  {db : MemoryDb} {deed : Deed} {deeds : List Deed}

theorem deeds_settle (l : Ledger) (name : String) : (l.settle name).deeds = l.deeds ++ l.pending name := by
  simp [settle, Ledger.deeds]

/-! ## Rows are those of the deeds -/

/-- The database holds the rows of what is settled, and every open transaction those of its own deeds. -/
structure Stages (l : Ledger) (s : Session MemoryDb MemoryTx) : Prop where
  healthy : s.db.failing = false
  settled : s.db.rows = .ofDeeds l.deeds
  pending : ∀ name tx, s.find? name = some tx → tx.staged = .ofDeeds (l.pending name)

namespace Stages

/-- A call that gives a transaction other rows, and the database none. -/
theorem after (h : l.Stages s) (hrows : db.rows = s.db.rows) (hfailing : db.failing = s.db.failing)
    (hstaged : tx.staged = .ofDeeds deeds) : (l.put name deeds).Stages (s.after name tx db) := by
  refine ⟨hfailing.trans h.healthy, hrows.trans h.settled, Session.forall_after ?_ fun n tx' hn hf => ?_⟩
  · rw [put_pending_self, hstaged]
  · rw [put_pending_other l deeds hn]
    exact h.pending n tx' hf

/-- A call that ends a transaction, and gives the database no rows. -/
theorem without (h : l.Stages s) (hrows : db.rows = s.db.rows) (hfailing : db.failing = s.db.failing) :
    l.Stages (s.without name db) :=
  ⟨hfailing.trans h.healthy, hrows.trans h.settled,
    Session.forall_without fun n tx' _ hf => h.pending n tx' hf⟩

theorem commit (h : l.Stages s) (hf : s.find? name = some tx) :
    (l.settle name).Stages (s.without name (tx.commit s.db)) := by
  refine ⟨h.healthy, ?_, Session.forall_without fun n tx' _ hf => h.pending n tx' hf⟩
  rw [deeds_settle, MemoryRows.ofDeeds_append, ← h.settled, ← h.pending name tx hf]
  rfl

/-- **A call keeps the rows those of the deeds.** -/
theorem step (h : l.Stages s) (a : Action) :
    (l.note (a, (s.step Memory.store a).1)).Stages (s.step Memory.store a).2 := by
  have hstep := Session.memory_step_cases s a
  generalize s.step Memory.store a = result at hstep ⊢
  cases hstep with
  | begun name => exact h.after rfl rfl rfl
  | @done name tx deed hf hid =>
    rw [note_done]
    refine h.after rfl rfl ?_
    rw [MemoryRows.ofDeeds_snoc, ← h.pending name tx hf]
  | committed hf => exact h.commit hf
  | rolledBack hf => exact h.without rfl rfl
  | dropped hf => exact h.without rfl rfl
  | absent hf hb =>
    rw [note_absent]
    exact h

end Stages

/-! ## A deed belongs to one transaction -/

/-- A deed of an open transaction. -/
def Held (l : Ledger) (s : Session MemoryDb MemoryTx) (name : String) (deed : Deed) : Prop :=
  s.find? name ≠ none ∧ deed ∈ l.pending name

theorem held_after : (l.put name deeds).Held (s.after name tx db) other deed ↔
    other = name ∧ deed ∈ deeds ∨ other ≠ name ∧ l.Held s other deed := by
  unfold Held
  by_cases h : other = name
  · subst h
    simp
  · simp [h, Session.find?_after_other s tx db h, put_pending_other l deeds h]

theorem held_without : l.Held (s.without name db) other deed ↔ other ≠ name ∧ l.Held s other deed := by
  unfold Held
  by_cases h : other = name
  · subst h
    simp
  · simp [h, Session.find?_without_other s db h]

/-- What a call can do to the deeds: nothing but let go of some, add one under the next id, or settle those of
an open transaction. -/
inductive Noted (l : Ledger) (s : Session MemoryDb MemoryTx) (l' : Ledger)
    (s' : Session MemoryDb MemoryTx) : Prop where
  | kept (hlast : s'.db.lastId = s.db.lastId) (hdeeds : l'.deeds = l.deeds)
      (hheld : ∀ {other deed}, l'.Held s' other deed → l.Held s other deed)
  | added (name : String) {new : Deed} (hid : new.id = (s.db.lastId : Int) + 1)
      (hlast : s'.db.lastId = s.db.lastId + 1) (hdeeds : l'.deeds = l.deeds)
      (hheld : ∀ {other deed}, l'.Held s' other deed →
        l.Held s other deed ∨ other = name ∧ deed = new)
  | settled {name : String} (hopen : s.find? name ≠ none) (hlast : s'.db.lastId = s.db.lastId)
      (hdeeds : l'.deeds = l.deeds ++ l.pending name)
      (hheld : ∀ {other deed}, l'.Held s' other deed → other ≠ name ∧ l.Held s other deed)

theorem noted (l : Ledger) (s : Session MemoryDb MemoryTx) (a : Action) :
    l.Noted s (l.note (a, (s.step Memory.store a).1)) (s.step Memory.store a).2 := by
  have hstep := Session.memory_step_cases s a
  generalize s.step Memory.store a = result at hstep ⊢
  cases hstep with
  | begun name =>
    refine .kept rfl rfl fun hheld => ?_
    rcases held_after.1 hheld with ⟨_, hmem⟩ | ⟨_, hheld⟩
    · cases hmem
    · exact hheld
  | @done name tx deed hf hid =>
    rw [note_done]
    refine .added name hid rfl rfl fun hheld => ?_
    rcases held_after.1 hheld with ⟨rfl, hmem⟩ | ⟨_, hheld⟩
    · rcases List.mem_append.1 hmem with hmem | hmem
      · exact Or.inl ⟨by simp [hf], hmem⟩
      · exact Or.inr ⟨rfl, List.mem_singleton.1 hmem⟩
    · exact Or.inl hheld
  | committed hf => exact .settled (by simp [hf]) rfl (deeds_settle l _) held_without.1
  | rolledBack hf => exact .kept rfl rfl fun hheld => (held_without.1 hheld).2
  | dropped hf => exact .kept rfl rfl fun hheld => (held_without.1 hheld).2
  | absent hf hb =>
    rw [note_absent]
    exact .kept rfl rfl id

variable {l' : Ledger} {s' : Session MemoryDb MemoryTx}

/-- No deed belongs to two transactions, and new ones have greater ids. -/
structure Apart (l : Ledger) (s : Session MemoryDb MemoryTx) : Prop where
  settled_le : ∀ deed ∈ l.deeds, deed.id ≤ s.db.lastId
  held_le : ∀ {name deed}, l.Held s name deed → deed.id ≤ s.db.lastId
  once : ∀ {name other deed}, l.Held s name deed → l.Held s other deed → name = other
  unsettled : ∀ {name deed}, l.Held s name deed → deed ∉ l.deeds

theorem not_le_of_next {id : Int} {last : Nat} (h : id = (last : Int) + 1) : ¬ id ≤ last := by
  omega

theorem le_succ_of_le {id : Int} {last : Nat} (h : id ≤ last) : id ≤ (last + 1 : Nat) := by
  omega

/-- **A call keeps the deeds apart.** -/
theorem Apart.noted (h : l.Apart s) (hn : l.Noted s l' s') : l'.Apart s' := by
  cases hn with
  | kept hlast hdeeds hheld =>
    exact
      { settled_le := by rw [hdeeds, hlast]; exact h.settled_le
        held_le := fun hd => by rw [hlast]; exact h.held_le (hheld hd)
        once := fun hd hd' => h.once (hheld hd) (hheld hd')
        unsettled := fun hd => by rw [hdeeds]; exact h.unsettled (hheld hd) }
  | @added name new hid hlast hdeeds hheld =>
    -- what was there before has an id below that of the new deed
    have hnew : ¬ new.id ≤ s.db.lastId := not_le_of_next hid
    refine ⟨fun deed hdeed => ?_, fun hd => ?_, fun hd hd' => ?_, fun hd hmem => ?_⟩
    · rw [hlast]
      exact le_succ_of_le (h.settled_le deed (hdeeds ▸ hdeed))
    · rw [hlast]
      rcases hheld hd with hd | ⟨_, rfl⟩
      · exact le_succ_of_le (h.held_le hd)
      · exact Int.le_of_eq hid
    · rcases hheld hd with hd | ⟨rfl, rfl⟩ <;> rcases hheld hd' with hd' | ⟨rfl, heq⟩
      · exact h.once hd hd'
      · exact absurd (h.held_le hd) (heq ▸ hnew)
      · exact absurd (h.held_le hd') hnew
      · rfl
    · rw [hdeeds] at hmem
      rcases hheld hd with hd | ⟨_, rfl⟩
      · exact h.unsettled hd hmem
      · exact hnew (h.settled_le _ hmem)
  | @settled name hopen hlast hdeeds hheld =>
    refine ⟨fun deed hdeed => ?_, fun hd => ?_, fun hd hd' => h.once (hheld hd).2 (hheld hd').2,
      fun hd hmem => ?_⟩
    · rw [hlast]
      rcases List.mem_append.1 (hdeeds ▸ hdeed) with hmem | hmem
      · exact h.settled_le deed hmem
      · exact h.held_le ⟨hopen, hmem⟩
    · rw [hlast]
      exact h.held_le (hheld hd).2
    · rcases List.mem_append.1 (hdeeds ▸ hmem) with hmem | hmem
      · exact h.unsettled (hheld hd).2 hmem
      · exact (hheld hd).1 (h.once (hheld hd).2 ⟨hopen, hmem⟩)

/-- A deed that belongs neither to an open transaction nor to one that has committed. -/
structure Gone (l : Ledger) (s : Session MemoryDb MemoryTx) (deed : Deed) : Prop where
  le : deed.id ≤ s.db.lastId
  unsettled : deed ∉ l.deeds
  unheld : ∀ {name}, ¬ l.Held s name deed

/-- **What is gone does not come back.** -/
theorem Gone.noted (h : l.Gone s deed) (hn : l.Noted s l' s') : l'.Gone s' deed := by
  cases hn with
  | kept hlast hdeeds hheld =>
    exact ⟨hlast ▸ h.le, hdeeds ▸ h.unsettled, fun hd => h.unheld (hheld hd)⟩
  | added name hid hlast hdeeds hheld =>
    refine ⟨hlast ▸ le_succ_of_le h.le, hdeeds ▸ h.unsettled, fun hd => ?_⟩
    rcases hheld hd with hd | ⟨_, rfl⟩
    · exact h.unheld hd
    · exact not_le_of_next hid h.le
  | settled hopen hlast hdeeds hheld =>
    refine ⟨hlast ▸ h.le, fun hmem => ?_, fun hd => h.unheld (hheld hd).2⟩
    rcases List.mem_append.1 (hdeeds ▸ hmem) with hmem | hmem
    · exact h.unsettled hmem
    · exact h.unheld ⟨hopen, hmem⟩

/-- A deed is gone once no open transaction of its name is left. -/
theorem Apart.gone (h : l.Apart s) (hheld : l.Held s name deed) (hlast : s'.db.lastId = s.db.lastId)
    (hdeeds : l'.deeds = l.deeds)
    (hothers : ∀ {other deed}, l'.Held s' other deed → other ≠ name ∧ l.Held s other deed) :
    l'.Gone s' deed where
  le := hlast ▸ h.held_le hheld
  unsettled := hdeeds ▸ h.unsettled hheld
  unheld := fun hd => (hothers hd).1 (h.once (hothers hd).2 hheld)

/-- **Rolling back, dropping and beginning anew let go of the deeds of a transaction.** -/
theorem Apart.gone_of_ended (h : l.Apart s) (hheld : l.Held s name deed) {a : Action}
    (ha : a.Abandons name) :
    (l.note (a, (s.step Memory.store a).1)).Gone (s.step Memory.store a).2 deed := by
  obtain ⟨tx, hf⟩ := Option.ne_none_iff_exists'.1 hheld.1
  rcases ha with rfl | rfl | rfl
  · simp only [Session.step, hf]
    exact h.gone hheld rfl rfl held_without.1
  · simp only [Session.step, hf]
    exact h.gone hheld rfl rfl held_without.1
  · simp only [Session.step, Memory.store, hf]
    refine h.gone hheld rfl rfl fun hd => ?_
    rcases held_after.1 hd with ⟨_, hmem⟩ | hd
    · cases hmem
    · exact hd

end Ledger

/-! ## Ids and counters -/

/-- The ids given out and the counts of the calls are those of the log. -/
structure Counts (log : List (Action × Answer)) (db : MemoryDb) : Prop where
  ids : log.filterMap (·.2.id?) = (List.range db.lastId).map fun k : Nat => (k : Int) + 1
  commits : db.commits = log.countP isCommit
  rollbacks : db.rollbacks = log.countP isRollback

namespace Counts

variable {log : List (Action × Answer)} {db db' : MemoryDb} {entry : Action × Answer}

/-- One more call, which hands out the next id or none. -/
theorem concat (h : Counts log db)
    (hids : entry.2.id? = none ∧ db'.lastId = db.lastId ∨
      entry.2.id? = some ((db.lastId : Int) + 1) ∧ db'.lastId = db.lastId + 1)
    (hcommits : db'.commits = db.commits + if isCommit entry then 1 else 0)
    (hrollbacks : db'.rollbacks = db.rollbacks + if isRollback entry then 1 else 0) :
    Counts (log ++ [entry]) db' where
  ids := by
    rw [List.filterMap_append, h.ids]
    rcases hids with ⟨hid, hlast⟩ | ⟨hid, hlast⟩
    · simp [hid, hlast]
    · simp [hid, hlast, List.range_succ]
  commits := by rw [List.countP_append, List.countP_singleton, ← h.commits, hcommits]
  rollbacks := by rw [List.countP_append, List.countP_singleton, ← h.rollbacks, hrollbacks]

/-- **A call is counted.** -/
theorem step {s : Session MemoryDb MemoryTx} (h : Counts log s.db) (a : Action) :
    Counts (log ++ [(a, (s.step Memory.store a).1)]) (s.step Memory.store a).2.db := by
  have hstep := Session.memory_step_cases s a
  generalize s.step Memory.store a = result at hstep ⊢
  cases hstep with
  | begun name => exact h.concat (Or.inl ⟨rfl, rfl⟩) rfl rfl
  | @done name tx deed hf hid =>
    refine h.concat (Or.inr ⟨?_, rfl⟩) ?_ ?_
    · rw [Deed.id?_answer, hid]
    · rw [isCommit_deed]
      rfl
    · rw [isRollback_deed]
      rfl
  | committed hf => exact h.concat (Or.inl ⟨rfl, rfl⟩) rfl rfl
  | rolledBack hf => exact h.concat (Or.inl ⟨rfl, rfl⟩) rfl rfl
  | dropped hf => exact h.concat (Or.inl ⟨rfl, rfl⟩) rfl rfl
  | absent hf hb => exact h.concat (Or.inl ⟨rfl, rfl⟩) (by cases a <;> rfl) (by cases a <;> rfl)

theorem ascending (h : Counts log db) : (log.filterMap (·.2.id?)).Pairwise (· < ·) := by
  rw [h.ids, List.pairwise_map]
  exact List.pairwise_lt_range.imp fun hlt => Int.add_lt_add_right (Int.ofNat_lt.2 hlt) 1

end Counts

/-! ## Whole runs -/

namespace Session

section Logs

variable {σ τ : Type} {store : Store σ τ}

/-- The calls to a session with the answers to them. -/
def logOf (store : Store σ τ) (s : Session σ τ) (actions : List Action) : List (Action × Answer) :=
  actions.zip (s.run store actions).1

theorem length_run : ∀ (actions : List Action) (s : Session σ τ),
    (s.run store actions).1.length = actions.length
  | [], _ => rfl
  | a :: actions, s => congrArg Nat.succ (length_run actions (s.step store a).2)

theorem logOf_append (actions more : List Action) (s : Session σ τ) :
    s.logOf store (actions ++ more) =
      s.logOf store actions ++ (s.run store actions).2.logOf store more := by
  unfold logOf
  rw [run_append, List.zip_append (length_run actions s).symm]

/-- What a call keeps, calls one after another keep. -/
theorem run_keeps {P : List (Action × Answer) → Session σ τ → Prop}
    (hstep : ∀ {log s} (a : Action), P log s → P (log ++ [(a, (s.step store a).1)]) (s.step store a).2) :
    ∀ (actions : List Action) {log : List (Action × Answer)} {s : Session σ τ}, P log s →
      P (log ++ s.logOf store actions) (s.run store actions).2
  | [], log, _, h => by
    rw [logOf, List.zip_nil_left, List.append_nil]
    exact h
  | a :: actions, log, s, h => by
    have hrest := run_keeps hstep actions (hstep a h)
    rwa [List.append_assoc] at hrest

end Logs

/-- What holds of a log and the session that it has led to. -/
structure Isolates (log : List (Action × Answer)) (s : Session MemoryDb MemoryTx) : Prop where
  stages : (Ledger.ofLog log).Stages s
  apart : (Ledger.ofLog log).Apart s
  counts : Counts log s.db

theorem ofLog_concat (log : List (Action × Answer)) (entry : Action × Answer) :
    Ledger.ofLog (log ++ [entry]) = (Ledger.ofLog log).note entry :=
  List.foldl_append

theorem isolates_start : Isolates [] (.start .empty) where
  stages := ⟨rfl, rfl, fun _ _ hf => by cases hf⟩
  apart :=
    { settled_le := fun _ hdeed => by cases hdeed
      held_le := fun hheld => absurd rfl hheld.1
      once := fun hheld => absurd rfl hheld.1
      unsettled := fun hheld => absurd rfl hheld.1 }
  counts := ⟨rfl, rfl, rfl⟩

variable {log : List (Action × Answer)} {s : Session MemoryDb MemoryTx}

theorem Isolates.step (h : Isolates log s) (a : Action) :
    Isolates (log ++ [(a, (s.step Memory.store a).1)]) (s.step Memory.store a).2 where
  stages := by
    rw [ofLog_concat]
    exact h.stages.step a
  apart := by
    rw [ofLog_concat]
    exact h.apart.noted (Ledger.noted _ s a)
  counts := h.counts.step a

/-- **After any calls the invariant holds of their log.** -/
theorem isolates_run (actions : List Action) :
    Isolates ((Session.start MemoryDb.empty).logOf Memory.store actions)
      ((Session.start MemoryDb.empty).run Memory.store actions).2 :=
  run_keeps (fun a h => h.step a) actions isolates_start

end Session

/-! ## What can be seen -/

/-- What the listings and the names of the files show: the rows of the committed transactions, one
transaction behind the other, and of each in the order in which it added them. -/
structure MemoryDb.ShowsSettled (db : MemoryDb) (settled : List Committed) : Prop where
  logical : Memory.store.logicalSources db =
    (.ok (settled.flatMap fun c => c.deeds.filterMap Deed.root?), db)
  images : Memory.store.imageSources db = (.ok (settled.flatMap fun c => c.deeds.flatMap Deed.segments), db)
  files : db.fileNames = settled.flatMap fun c => c.deeds.filterMap Deed.fileName?

theorem Ledger.Stages.shows {l : Ledger} {s : Session MemoryDb MemoryTx} (h : l.Stages s) :
    s.db.ShowsSettled l.settled := by
  obtain ⟨hlogical, himages⟩ := MemoryRows.ofDeeds_listings l.deeds
  constructor
  · simp only [Memory.store, MemoryDb.logicalSources, MemoryDb.query, h.healthy, h.settled, hlogical]
    exact congrArg (fun rows => (Reply.ok rows, s.db)) List.filterMap_flatMap
  · simp only [Memory.store, MemoryDb.imageSources, MemoryDb.query, h.healthy, h.settled, himages]
    exact congrArg (fun rows => (Reply.ok rows, s.db)) List.flatMap_assoc
  · rw [MemoryDb.fileNames, h.settled, MemoryRows.ofDeeds_files]
    exact List.filterMap_flatMap

namespace Session

variable {s : Session MemoryDb MemoryTx}

/-- No call to an open transaction is refused. -/
theorem memory_not_refused (s : Session MemoryDb MemoryTx) (a : Action)
    (h : (s.step Memory.store a).1.Refused) : s.find? a.name = none := by
  have hstep := memory_step_cases s a
  generalize s.step Memory.store a = result at hstep h
  cases hstep with
  | absent hf => exact hf
  | done => exact absurd h (not_refused_answer _)
  | begun => exact absurd rfl h
  | committed => exact absurd rfl h
  | rolledBack => exact absurd rfl h
  | dropped => exact absurd rfl h

/-- No call but a commit changes what can be seen. -/
theorem memory_rows_kept (s : Session MemoryDb MemoryTx) (a : Action) (h : ∀ name, a ≠ .commit name) :
    (s.step Memory.store a).2.db.rows = s.db.rows := by
  have hstep := memory_step_cases s a
  generalize s.step Memory.store a = result at hstep
  cases hstep with
  | @committed name _ _ => exact absurd rfl (h name)
  | _ => rfl

theorem gone_step {log : List (Action × Answer)} {deed : Deed} (h : (Ledger.ofLog log).Gone s deed)
    (a : Action) :
    (Ledger.ofLog (log ++ [(a, (s.step Memory.store a).1)])).Gone (s.step Memory.store a).2 deed := by
  rw [ofLog_concat]
  exact h.noted (Ledger.noted _ s a)

/-- **What a transaction has done that was let go of is never settled.** -/
theorem Isolates.abandoned {log : List (Action × Answer)} (h : Isolates log s) {name : String} {a : Action}
    (hopen : s.find? name ≠ none) (ha : a.Abandons name) (more : List Action) :
    ∀ deed ∈ (Ledger.ofLog log).pending name,
      deed ∉ (Ledger.ofLog (log ++ s.logOf Memory.store (a :: more))).deeds := by
  intro deed hdeed
  have hgone := h.apart.gone_of_ended ⟨hopen, hdeed⟩ ha
  rw [← ofLog_concat] at hgone
  have hrest := run_keeps (P := fun log s => (Ledger.ofLog log).Gone s deed) (fun a h => gone_step h a)
    more hgone
  rw [List.append_assoc] at hrest
  exact hrest.unsettled

end Session

/-- **Transactions of the database in memory are isolated.**  From an empty database on, after any calls to
any number of transactions: the ids handed out have increased from call to call; what can be seen is what
has been committed, in the order of the commits; the counters are the numbers of commits and of
rollbacks.  No call to an open transaction is refused, none but a commit changes the rows, and the deeds
of a transaction that is rolled back, dropped or begun anew are never settled. -/
theorem memory_isolates (actions : List Action) :
    let s₀ := Session.start MemoryDb.empty
    let s := (s₀.run Memory.store actions).2
    let log := s₀.logOf Memory.store actions
    (log.filterMap (·.2.id?)).Pairwise (· < ·) ∧
      s.db.ShowsSettled (Ledger.ofLog log).settled ∧
      s.db.commits = log.countP isCommit ∧
      s.db.rollbacks = log.countP isRollback ∧
      (∀ a, (s.step Memory.store a).1.Refused → s.find? a.name = none) ∧
      (∀ a, (∀ name, a ≠ .commit name) → (s.step Memory.store a).2.db.rows = s.db.rows) ∧
      ∀ (name : String) (a : Action) (more : List Action), s.find? name ≠ none → a.Abandons name →
        ∀ deed ∈ (Ledger.ofLog log).pending name,
          deed ∉ (Ledger.ofLog (s₀.logOf Memory.store (actions ++ a :: more))).deeds := by
  intro s₀ s log
  have h : Session.Isolates log s := Session.isolates_run actions
  refine ⟨h.counts.ascending, h.stages.shows, h.counts.commits, h.counts.rollbacks,
    s.memory_not_refused, s.memory_rows_kept, fun name a more hopen ha => ?_⟩
  rw [Session.logOf_append]
  exact h.abandoned hopen ha more

/-- Three transactions that overlap, of which one has committed. -/
def interleaved : List Action :=
  [.begin "a", .begin "b", .addSource "a" ⟨⟨"dev"⟩, none, "+00:00", 5⟩,
    .addImage "b" ⟨⟨"dev"⟩, ["d.001", "d.002"], "+00:00", 5⟩, .begin "c",
    .addFile "a" ⟨1, 1, fileEntry "x" 1⟩, .addSource "c" ⟨⟨"dev"⟩, none, "+00:00", 5⟩, .commit "b"]

theorem memory_isolates_interleaved :
    let s₀ := Session.start MemoryDb.empty
    let s := (s₀.run Memory.store interleaved).2
    let refused := Action.addSource "b" ⟨⟨"dev"⟩, none, "+00:00", 5⟩
    (Memory.store.imageSources s.db).1 = .ok [⟨2, "d.001"⟩, ⟨2, "d.002"⟩] ∧
      (Memory.store.logicalSources s.db).1 = .ok [] ∧
      s.find? "a" ≠ none ∧ (s.step Memory.store refused).1.Refused ∧ s.find? "b" = none ∧
      (s.step Memory.store (.rollback "a")).2.db.rows = s.db.rows ∧
      (Ledger.ofLog (s₀.logOf Memory.store interleaved)).pending "a" =
        [.source ⟨⟨"dev"⟩, none, "+00:00", 5⟩ ⟨1, "LogicalFileSet1", ⟨"dev"⟩⟩,
          .file ⟨1, 1, fileEntry "x" 1⟩ 3] ∧
      ∀ deed ∈ (Ledger.ofLog (s₀.logOf Memory.store interleaved)).pending "a",
        deed ∉ (Ledger.ofLog (s₀.logOf Memory.store
          (interleaved ++ [.rollback "a", .commit "c"]))).deeds := by
  intro s₀ s refused
  obtain ⟨_, _, _, _, hopen, hrows, hgone⟩ := memory_isolates interleaved
  have hrefused : (s.step Memory.store refused).1.Refused := trivial
  have ha : s.find? "a" ≠ none := by decide
  exact ⟨rfl, rfl, ha, hrefused, hopen refused hrefused, hrows (.rollback "a") (by simp), by cbv,
    hgone "a" (.rollback "a") [.commit "c"] ha (Or.inl rfl)⟩

end Casefile
