import Casefile.Proofs.Store.History

/-!
# Transactions one after another

* `Ledger` — what can be read off the calls of a session and the answers to them: the deeds of the
  transactions that have committed, in the order of their commits, and of those that are open.
* `Committed.script`, `Committed.answers` — a committed transaction run on its own: it begins, asks for
  what it has done and commits; and the answers to that.
* `Replays`, `Serial` — deeds done again on a draft, and committed transactions on tables;
  `Serial.preserves` — what a request that is done keeps, they keep.
* `Tx.Holds` — what an open transaction sees is what its deeds make of the committed tables.

Principal results: `Fits.run` — after any calls, the committed tables are those of the committed
transactions one after another, and every open transaction holds its deeds.
`run_serializable` — so running the committed transactions alone gives the same tables, and each of their
deeds gets the answer that it had; a request that is refused changes no tables.
-/

set_option autoImplicit false

namespace Casefile

/-- A committed transaction: its name and what it recorded. -/
structure Committed where
  name : String
  deeds : List Deed
  deriving DecidableEq, Repr

namespace Committed

/-- The calls that run the transaction on its own. -/
def script (c : Committed) : List Action :=
  .begin c.name :: (c.deeds.map fun d => d.request.action c.name) ++ [.commit c.name]

/-- The answers to those calls if every deed gets the answer that it had. -/
def answers (c : Committed) : List Answer :=
  .done (.ok ()) :: c.deeds.map Deed.answer ++ [.done (.ok ())]

end Committed

/-- What the transactions of a session have done. -/
structure Ledger where
  /-- In the order of the commits. -/
  settled : List Committed
  /-- By the name of the transaction. -/
  pending : String → List Deed

namespace Ledger

def empty : Ledger :=
  ⟨[], fun _ => []⟩

/-- The ledger with other deeds for a transaction. -/
def put (l : Ledger) (name : String) (deeds : List Deed) : Ledger :=
  { l with pending := fun n => if n = name then deeds else l.pending n }

/-- The ledger with one more deed of a transaction. -/
def add (l : Ledger) (name : String) (deed : Deed) : Ledger :=
  l.put name (l.pending name ++ [deed])

/-- The ledger after a transaction has committed. -/
def settle (l : Ledger) (name : String) : Ledger :=
  { l with settled := l.settled ++ [⟨name, l.pending name⟩] }

/-- The ledger after a call that was answered; calls that were refused leave it as it is. -/
def note (l : Ledger) : Action × Answer → Ledger
  | (.begin name, .done (.ok ())) => l.put name []
  | (.addSource name request, .content (.ok content)) => l.add name (.source request content)
  | (.addFile name request, .object (.ok id)) => l.add name (.file request id)
  | (.addImage name request, .content (.ok content)) => l.add name (.image request content)
  | (.commit name, .done (.ok ())) => l.settle name
  | _ => l

/-- The ledger of some calls with their answers. -/
def ofLog (log : List (Action × Answer)) : Ledger :=
  log.foldl note empty

@[simp] theorem put_pending_self (l : Ledger) (name : String) (deeds : List Deed) :
    (l.put name deeds).pending name = deeds := if_pos rfl

theorem put_pending_other (l : Ledger) {name other : String} (deeds : List Deed) (hne : other ≠ name) :
    (l.put name deeds).pending other = l.pending other := if_neg hne

theorem put_pending (l : Ledger) (name : String) : l.put name (l.pending name) = l := by
  unfold put
  congr 1
  funext n
  by_cases hn : n = name
  · rw [if_pos hn, hn]
  · rw [if_neg hn]

theorem note_done (l : Ledger) (name : String) (deed : Deed) :
    l.note (deed.request.action name, deed.answer) = l.add name deed := by
  cases deed <;> rfl

theorem note_refused (l : Ledger) (name : String) (q : Request) (e : Failure) :
    l.note (q.action name, q.refusal e) = l := by
  cases q <;> rfl

theorem note_absent (l : Ledger) (a : Action) : l.note (a, .noTransaction) = l := by
  cases a <;> rfl

end Ledger

/-! ## Doing deeds again -/

/-- The deeds, done again in order on a draft, get the answers that they had and lead to another. -/
def Replays : Draft → List Deed → Draft → Prop
  | d, [], d' => d = d'
  | d, deed :: deeds, d' => ∃ d₁, d.perform deed.request = .ok (deed, d₁) ∧ Replays d₁ deeds d'

theorem Replays.snoc {q : Request} {deed : Deed} {d₁ d₂ : Draft} :
    ∀ {deeds : List Deed} {d : Draft}, Replays d deeds d₁ → d₁.perform q = .ok (deed, d₂) →
      Replays d (deeds ++ [deed]) d₂
  | [], _, rfl, hp => ⟨d₂, by rw [Draft.perform_request hp]; exact hp, rfl⟩
  | _ :: _, _, ⟨d', hd, hr⟩, hp => ⟨d', hd, hr.snoc hp⟩

/-- The committed transactions, run one after another on tables, lead to others. -/
def Serial : Tables → List Committed → Tables → Prop
  | t, [], t' => t = t'
  | t, c :: rest, t' => ∃ d, Replays ⟨t, []⟩ c.deeds d ∧ Serial d.tables rest t'

theorem Serial.snoc {c : Committed} {d : Draft} {t₁ : Tables} :
    ∀ {cs : List Committed} {t : Tables}, Serial t cs t₁ → Replays ⟨t₁, []⟩ c.deeds d →
      Serial t (cs ++ [c]) d.tables
  | [], _, rfl, hr => ⟨d, hr, rfl⟩
  | _ :: _, _, ⟨d', hd, hs⟩, hr => ⟨d', hd, hs.snoc hr⟩

section Preserves

variable {P : Tables → List Deed → Prop}

/-- What a request that is done keeps, deeds that are done again keep. -/
theorem Replays.preserves
    (hstep : ∀ {d d' : Draft} {q : Request} {deed : Deed} {deeds : List Deed},
      d.WellFormed → d.perform q = .ok (deed, d') → P d.tables deeds → P d'.tables (deeds ++ [deed])) :
    ∀ (more : List Deed) {d d' : Draft} {deeds : List Deed}, P d.tables deeds → d.WellFormed →
      Replays d more d' → P d'.tables (deeds ++ more) ∧ d'.WellFormed
  | [], d, _, deeds, h, hd, rfl => by
    rw [List.append_nil]
    exact ⟨h, hd⟩
  | deed :: more, _, _, deeds, h, hd, ⟨d₁, hp, hr⟩ => by
    have hrest := preserves hstep more (hstep hd hp h) (hd.perform hp) hr
    rwa [List.append_assoc] at hrest

/-- **So do committed transactions**, one after another. -/
theorem Serial.preserves
    (hstep : ∀ {d d' : Draft} {q : Request} {deed : Deed} {deeds : List Deed},
      d.WellFormed → d.perform q = .ok (deed, d') → P d.tables deeds → P d'.tables (deeds ++ [deed])) :
    ∀ (cs : List Committed) {t t' : Tables} {deeds : List Deed}, P t deeds → t.WellFormed →
      Serial t cs t' → P t' (deeds ++ cs.flatMap (·.deeds))
  | [], _, _, deeds, h, _, rfl => by
    rw [List.flatMap_nil, List.append_nil]
    exact h
  | c :: cs, t, _, deeds, h, ht, ⟨d, hr, hs⟩ => by
    have hd : (Draft.mk t []).WellFormed := ⟨ht, fun _ _ hl => by cases hl⟩
    obtain ⟨hkept, hwf⟩ := Replays.preserves hstep c.deeds h hd hr
    have hrest := preserves hstep cs hkept hwf.tables hs
    rwa [List.append_assoc] at hrest

end Preserves

/-! ## What a transaction holds -/

theorem Tx.draft_of_idle {tx : Tx} {db : Db} (h : tx.Inv db) (hw : tx.wrote = false)
    (hv : (tx.look db).version = db.version) : tx.draft db = ⟨db.committed, []⟩ := by
  obtain ⟨hpaths, htables⟩ := h.idle hw
  unfold Tx.draft
  rw [hpaths, htables hv]

/-- What a transaction sees is what its deeds make of the committed tables; before the first of them it
may see older ones. -/
structure Tx.Holds (db : Db) (tx : Tx) (deeds : List Deed) : Prop where
  idle : tx.wrote = false → deeds = []
  busy : tx.wrote = true → Replays ⟨db.committed, []⟩ deeds (tx.draft db)

namespace Tx.Holds

variable {tx : Tx} {db : Db} {deeds : List Deed}

theorem fresh (db : Db) : Tx.fresh.Holds db [] :=
  ⟨fun _ => rfl, fun hw => (by cases hw)⟩

theorem sameTables {db' : Db} (h : tx.Holds db deeds) (hs : db.SameTables db') :
    tx.Holds db' deeds := by
  refine ⟨h.idle, fun hw => ?_⟩
  rw [hs.committed, Tx.draft_sameTables hs]
  exact h.busy hw

theorem looked {tx' : Tx} (h : tx.Holds db deeds) (hl : tx.Looked db tx') : tx'.Holds db deeds := by
  refine ⟨fun hw => h.idle (hl.wrote_eq.symm.trans hw), fun hw => ?_⟩
  rw [hl.draft_eq]
  exact h.busy (hl.wrote_eq.symm.trans hw)

/-- A request that is done adds a deed. -/
theorem became {q : Request} {deed : Deed} {d : Draft} (h : tx.Holds db deeds) (hi : tx.Inv db)
    (hd : (tx.draft db).perform q = .ok (deed, d)) (hm : tx.MayWrite db) :
    (tx.became db d).Holds { db with writing := true } (deeds ++ [deed]) := by
  refine ⟨fun hw => (by cases hw), fun _ => ?_⟩
  show Replays ⟨db.committed, []⟩ _ d
  cases hw : tx.wrote with
  | true => exact (h.busy hw).snoc hd
  | false =>
    -- its first deed: it still sees the committed tables
    have hver : (tx.look db).version = db.version := by
      rcases hm with hm | hm
      · rw [hw] at hm; cases hm
      · exact hm.2
    rw [h.idle hw]
    rw [Tx.draft_of_idle hi hw hver] at hd
    exact Replays.snoc rfl hd

/-- What a commit makes of the committed tables. -/
theorem commit (h : tx.Holds db deeds) :
    ∃ d, Replays ⟨db.committed, []⟩ deeds d ∧ (tx.commit db).committed = d.tables := by
  cases hw : tx.wrote with
  | true =>
    refine ⟨tx.draft db, h.busy hw, ?_⟩
    rw [Tx.commit_of_wrote hw]
  | false =>
    rw [h.idle hw, Tx.commit_of_idle hw]
    exact ⟨_, rfl, rfl⟩

end Tx.Holds

/-! ## The ledger fits the session -/

/-- A ledger that fits a session: the committed tables are those of the settled transactions one after
another, and every open transaction holds its deeds. -/
structure Ledger.Fits (t : Tables) (l : Ledger) (s : Session Db Tx) : Prop where
  settled : Serial t l.settled s.db.committed
  pending : ∀ name tx, s.find? name = some tx → tx.Holds s.db (l.pending name)

namespace Ledger

variable {t : Tables} {l : Ledger} {s : Session Db Tx}

theorem fits_start (t : Tables) : empty.Fits t (.start (.ofTables t)) :=
  ⟨rfl, fun _ _ hf => (by cases hf)⟩

/-- A call that gives a transaction new deeds and changes no committed tables. -/
theorem Fits.after (h : l.Fits t s) {name : String} {tx : Tx} {db : Db} {deeds : List Deed}
    (hs : s.db.SameTables db) (htx : tx.Holds db deeds) :
    (l.put name deeds).Fits t (s.after name tx db) := by
  refine ⟨?_, fun n tx' hf => ?_⟩
  · show Serial t l.settled db.committed
    rw [hs.committed]
    exact h.settled
  · show tx'.Holds db _
    by_cases hn : n = name
    · subst hn
      rw [Session.find?_after_self] at hf
      cases hf
      rw [put_pending_self]
      exact htx
    · rw [Session.find?_after_other s tx db hn] at hf
      rw [put_pending_other l deeds hn]
      exact (h.pending n tx' hf).sameTables hs

/-- A call that ends a transaction and changes no committed tables. -/
theorem Fits.without (h : l.Fits t s) {name : String} {db : Db} (hs : s.db.SameTables db) :
    l.Fits t (s.without name db) := by
  refine ⟨?_, fun n tx' hf => ?_⟩
  · show Serial t l.settled db.committed
    rw [hs.committed]
    exact h.settled
  · show tx'.Holds db _
    by_cases hn : n = name
    · subst hn
      rw [Session.find?_without_self] at hf
      cases hf
    · rw [Session.find?_without_other s db hn] at hf
      exact (h.pending n tx' hf).sameTables hs

/-- A transaction commits: its deeds come behind those that are settled. -/
theorem Fits.commit (h : l.Fits t s) (hi : s.Inv) {name : String} {tx : Tx}
    (hf : s.find? name = some tx) : (l.settle name).Fits t (s.without name (tx.commit s.db)) := by
  obtain ⟨d, hd, hcommitted⟩ := (h.pending name tx hf).commit
  refine ⟨?_, fun n tx' hn => ?_⟩
  · show Serial t _ (tx.commit s.db).committed
    rw [hcommitted]
    exact h.settled.snoc hd
  · show tx'.Holds (tx.commit s.db) (l.pending n)
    by_cases hne : n = name
    · subst hne
      rw [Session.find?_without_self] at hn
      cases hn
    · rw [Session.find?_without_other s _ hne] at hn
      cases hw : tx.wrote with
      | false =>
        rw [Tx.commit_of_idle hw]
        exact h.pending n tx' hn
      | true =>
        -- nobody else has written, so no other transaction holds anything
        refine ⟨(h.pending n tx' hn).idle, fun hw' => ?_⟩
        exact absurd (hi.single n name ⟨tx', hn, hw'⟩ ⟨tx, hf, hw⟩) hne

/-- **Noting a call keeps the ledger fitting.** -/
theorem Fits.step (h : l.Fits t s) (hi : s.Inv) (a : Action) :
    (l.note (a, (s.step Relational.store a).1)).Fits t (s.step Relational.store a).2 := by
  have hstep := Session.step_cases hi a
  generalize s.step Relational.store a = result at hstep ⊢
  cases hstep with
  | begun name => exact h.after (Session.vacated_sameTables s name) (.fresh _)
  | @done name tx q deed d hf hd hm =>
    have hq : deed.request = q := Draft.perform_request hd
    subst hq
    rw [note_done]
    exact h.after ⟨rfl, rfl, rfl⟩ ((h.pending name tx hf).became (hi.each name tx hf) hd hm)
  | @refused name tx tx' q e hf hl hno =>
    rw [note_refused, ← put_pending l name]
    exact h.after (.refl _) ((h.pending name tx hf).looked hl)
  | committed hf => exact h.commit hi hf
  | rolledBack hf => exact h.without (Db.release_sameTables _ _)
  | dropped hf => exact h.without (Db.release_sameTables _ _)
  | absent hf hb =>
    rw [note_absent]
    exact h

/-- **After any calls the ledger of the calls and their answers fits the session.** -/
theorem Fits.run : ∀ (actions : List Action) {l : Ledger} {s : Session Db Tx}, l.Fits t s → s.Inv →
    ((actions.zip (s.run Relational.store actions).1).foldl note l).Fits t
      (s.run Relational.store actions).2
  | [], _, _, h, _ => h
  | a :: actions, _, _, h, hi => Fits.run actions (h.step hi a) (hi.step a)

end Ledger

/-! ## Running a committed transaction on its own -/

/-- A commit makes what the transaction sees the committed tables. -/
theorem Tx.commit_committed {tx : Tx} {db : Db} (h : tx.Inv db) (hm : tx.MayWrite db) :
    (tx.commit db).committed = (tx.draft db).tables := by
  cases hw : tx.wrote with
  | true => rw [commit_of_wrote hw]
  | false =>
    have hver : (tx.look db).version = db.version := by
      rcases hm with hm | hm
      · rw [hw] at hm; cases hm
      · exact hm.2
    rw [draft_of_idle h hw hver, commit_of_idle hw]

namespace Session

variable {s : Session Db Tx} {name : String} {tx : Tx}

theorem run_append {σ τ : Type} (store : Store σ τ) :
    ∀ (xs ys : List Action) (s : Session σ τ),
      s.run store (xs ++ ys) =
        ((s.run store xs).1 ++ ((s.run store xs).2.run store ys).1,
          ((s.run store xs).2.run store ys).2)
  | [], _, _ => rfl
  | x :: xs, ys, s => by
    simp only [List.cons_append, run]
    rw [run_append store xs ys]

theorem find?_of_alone (ho : s.opened = [(name, tx)]) : s.find? name = some tx := by
  unfold find?
  rw [ho]
  simp

theorem others_of_alone (ho : s.opened = [(name, tx)]) : s.others name = [] := by
  unfold others
  rw [ho]
  simp

/-- A request that the draft does is done if the transaction may write. -/
theorem step_done (hi : s.Inv) (hf : s.find? name = some tx) {q : Request} {deed : Deed} {d : Draft}
    (hd : (tx.draft s.db).perform q = .ok (deed, d)) (hm : tx.MayWrite s.db) :
    s.step Relational.store (q.action name) =
      (deed.answer, s.after name (tx.became s.db d) { s.db with writing := true }) := by
  rw [step_request hf q]
  have hp := Tx.perform_cases (hi.each name tx hf).draft (hi.lock_of_wrote hf) q
  generalize tx.perform s.db q = result at hp ⊢
  cases hp with
  | done hd' _ =>
    rw [hd] at hd'
    cases hd'
    rfl
  | refused _ hno => exact absurd hm (hno deed d hd)

/-- The only open transaction does its deeds again. -/
theorem run_deeds {d : Draft} :
    ∀ (deeds : List Deed) {s : Session Db Tx} {tx : Tx}, s.Inv → s.opened = [(name, tx)] →
      tx.MayWrite s.db → Replays (tx.draft s.db) deeds d →
      ∃ s' tx', s.run Relational.store (deeds.map fun d => d.request.action name) =
          (deeds.map Deed.answer, s') ∧ s'.Inv ∧ s'.opened = [(name, tx')] ∧ tx'.MayWrite s'.db ∧
        tx'.draft s'.db = d
  | [], s, tx, hi, ho, hm, hr => ⟨s, tx, rfl, hi, ho, hm, hr⟩
  | deed :: deeds, s, tx, hi, ho, hm, ⟨d₁, hd, hr⟩ => by
    have hf := find?_of_alone ho
    have hstep := step_done hi hf hd hm
    have hinv := hi.step (deed.request.action name)
    rw [hstep] at hinv
    have ho₁ : (s.after name (tx.became s.db d₁) { s.db with writing := true }).opened =
        [(name, tx.became s.db d₁)] := by
      unfold after
      rw [others_of_alone ho]
    obtain ⟨s', tx', hrun, hrest⟩ := run_deeds deeds hinv ho₁ (Or.inl rfl) hr
    refine ⟨s', tx', ?_, hrest⟩
    simp only [List.map_cons, run, hstep, hrun]

/-- A committed transaction, run on its own on the tables that it was settled on. -/
theorem run_script (hi : s.Inv) (ho : s.opened = []) {c : Committed} {d : Draft}
    (hr : Replays ⟨s.db.committed, []⟩ c.deeds d) :
    ∃ s', s.run Relational.store c.script = (c.answers, s') ∧ s'.Inv ∧ s'.opened = [] ∧
      s'.db.committed = d.tables := by
  have hnone : ∀ n, s.find? n = none := fun n => by
    unfold find?
    rw [ho]
    rfl
  have hfree : s.db.writing = false := by
    cases hw : s.db.writing with
    | false => rfl
    | true =>
      obtain ⟨n, tx, hf, _⟩ := hi.lock.1 hw
      rw [hnone n] at hf
      cases hf
  have hbegin : s.step Relational.store (.begin c.name) =
      (.done (.ok ()), ⟨s.db, [(c.name, .fresh)]⟩) := by
    rw [step_begin hi, vacated, hnone c.name]
    unfold after others
    rw [ho]
    rfl
  have hinv := hi.step (.begin c.name)
  rw [hbegin] at hinv
  obtain ⟨s', tx', hrun, hinv', ho', hm', hd'⟩ :=
    run_deeds c.deeds hinv rfl (Or.inr ⟨hfree, rfl⟩) hr
  have hf' := find?_of_alone ho'
  have hcommit : s'.step Relational.store (.commit c.name) =
      (.done (.ok ()), s'.without c.name (tx'.commit s'.db)) := by
    simp only [step, hf']
    rfl
  refine ⟨s'.without c.name (tx'.commit s'.db), ?_, hinv'.commit hf', others_of_alone ho', ?_⟩
  · unfold Committed.script Committed.answers
    rw [List.cons_append, run, hbegin]
    simp only
    rw [run_append, hrun]
    simp only [run, hcommit, List.cons_append]
  · show (tx'.commit s'.db).committed = d.tables
    rw [Tx.commit_committed (hinv'.each _ _ hf') hm', hd']

/-- Committed transactions, run on their own one after another. -/
theorem run_serial {t : Tables} :
    ∀ (cs : List Committed) {s : Session Db Tx}, s.Inv → s.opened = [] →
      Serial s.db.committed cs t →
      ∃ s', s.run Relational.store (cs.flatMap Committed.script) =
        (cs.flatMap Committed.answers, s') ∧ s'.db.committed = t
  | [], s, _, _, hs => ⟨s, rfl, hs⟩
  | c :: cs, s, hi, ho, ⟨d, hr, hs⟩ => by
    obtain ⟨s₁, hrun, hi₁, ho₁, hc₁⟩ := run_script hi ho hr
    rw [← hc₁] at hs
    obtain ⟨s', hrun', hs'⟩ := run_serial cs hi₁ ho₁ hs
    refine ⟨s', ?_, hs'⟩
    rw [List.flatMap_cons, run_append, hrun, hrun']
    rfl

end Session

/-! ## Serializability -/

/-- An answer that says that nothing was done. -/
def Answer.Refused : Answer → Prop
  | .done r => r ≠ .ok ()
  | .content r => ∀ content, r ≠ .ok content
  | .object r => ∀ id, r ≠ .ok id
  | .noTransaction => True

/-- The tables that the open transaction of a name sees. -/
def Session.sees (s : Session Db Tx) (name : String) : Option Tables :=
  (s.find? name).map fun tx => (tx.look s.db).tables

theorem not_refused_answer (deed : Deed) : ¬ deed.answer.Refused := by
  cases deed <;> exact fun h => h _ rfl

/-- A call that is refused changes no tables. -/
theorem Session.Inv.step_refused {s : Session Db Tx} (hi : s.Inv) (a : Action)
    (h : (s.step Relational.store a).1.Refused) :
    (s.step Relational.store a).2.db.committed = s.db.committed ∧
      ∀ name, (s.step Relational.store a).2.sees name = s.sees name := by
  have hstep := step_cases hi a
  generalize s.step Relational.store a = result at hstep h ⊢
  cases hstep with
  | done => exact absurd h (not_refused_answer _)
  | @refused name tx tx' q e hf hl hno =>
    refine ⟨rfl, fun n => ?_⟩
    unfold Session.sees
    by_cases hn : n = name
    · subst hn
      rw [find?_after_self, hf]
      exact congrArg some (congrArg Draft.tables hl.draft_eq)
    · rw [find?_after_other s tx' s.db hn]
      rfl
  | absent => exact ⟨rfl, fun _ => rfl⟩
  | begun => exact absurd rfl h
  | committed => exact absurd rfl h
  | rolledBack => exact absurd rfl h
  | dropped => exact absurd rfl h

/-- **Transactions are serializable**: on a case database with any history, after any calls to any
transactions, running only those that have committed, in the order of their commits and each with
what it was not refused, gives the same committed tables, and to each of its requests the same
answer.  A further call that is refused changes neither the committed tables nor what an open transaction
sees. -/
theorem run_serializable (now : Int) (events : List Event) (actions : List Action) :
    let s₀ := Session.start (Db.ofTables (history now events).db.committed)
    let s := (s₀.run Relational.store actions).2
    let settled := (Ledger.ofLog (actions.zip (s₀.run Relational.store actions).1)).settled
    (s₀.run Relational.store (settled.flatMap Committed.script)).1 =
        settled.flatMap Committed.answers ∧
      (s₀.run Relational.store (settled.flatMap Committed.script)).2.db.committed =
        s.db.committed ∧
      ∀ a, (s.step Relational.store a).1.Refused →
        (s.step Relational.store a).2.db.committed = s.db.committed ∧
          ∀ name, (s.step Relational.store a).2.sees name = s.sees name := by
  intro s₀ s settled
  have hi : s₀.Inv := Session.start_inv (history_inv now events).committed
  have hfits := (Ledger.fits_start s₀.db.committed).run actions hi
  obtain ⟨s', hrun, hs'⟩ := Session.run_serial settled hi rfl hfits.settled
  rw [hrun]
  exact ⟨rfl, hs', (hi.run actions).step_refused⟩

/-- Two transactions that overlap: the second has looked before the first commits. -/
def overlapping : List Action :=
  [.begin "a", .begin "b", .addSource "a" ⟨⟨"dev"⟩, none, "+00:00", 5⟩,
    .addSource "b" ⟨⟨"dev"⟩, none, "+00:00", 6⟩, .addFile "a" ⟨4, 4, folderEntry "docs"⟩,
    .addFile "a" ⟨4, 5, fileEntry "big" (Tx.maxSize + 1)⟩, .commit "a"]

theorem run_serializable_overlapping :
    let s₀ := Session.start (Db.ofTables (history 0 eventful).db.committed)
    let run := s₀.run Relational.store overlapping
    let settled := (Ledger.ofLog (overlapping.zip run.1)).settled
    let again := Action.addSource "b" ⟨⟨"dev"⟩, none, "+00:00", 6⟩
    settled.map (fun c => (c.name, c.deeds.length)) = [("a", 2)] ∧
      (s₀.run Relational.store (settled.flatMap Committed.script)).2.db.committed =
        run.2.db.committed ∧
      (run.2.step Relational.store again).1 = .content (.failed (.database .outdatedView)) ∧
      (run.2.step Relational.store again).2.db.committed = run.2.db.committed := by
  intro s₀ run settled again
  obtain ⟨_, hsame, hrefused⟩ := run_serializable 0 eventful overlapping
  have hagain : (run.2.step Relational.store again).1.Refused := fun _ h => by cases h
  exact ⟨rfl, hsame, rfl, (hrefused again hagain).1⟩

end Casefile
