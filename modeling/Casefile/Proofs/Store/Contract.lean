import Casefile.Proofs.Store.Serial
import Casefile.Store.Faulty
import Casefile.Store.Memory

/-!
# What a case database promises

* `Store.Contract` — the promises: what a commit that succeeds adds to the contents, and that nothing else
  that a transaction does can be seen in them.  Others may commit at any time; what they do to the
  contents is a relation of its own.
* `Store.Contract.withFaults` — a database in which calls fail on demand keeps the promises.

Principal results: `Relational.contract` — the relational database keeps them.  What is added by a commit
is what the deeds of the transaction make of the tables.  `Memory.contract` — so does the database in
memory, where a commit adds the rows that stand for them.
-/

set_option autoImplicit false

namespace Casefile

/-- The promises of a case database with contents of the type `κ`. -/
structure Store.Contract {σ τ : Type} (store : Store σ τ) (κ : Type) where
  /-- What is committed. -/
  contents : σ → κ
  /-- The state is one that the database can be in. -/
  Valid : σ → Prop
  /-- The open transaction has done these deeds, and nothing else. -/
  Holds : List Deed → τ → σ → Prop
  /-- What the deeds of a transaction make of the contents. -/
  Records : List Deed → κ → κ → Prop
  /-- What others can do to the contents meanwhile. -/
  Others : κ → κ → Prop
  others_refl : ∀ k, Others k k
  others_trans : ∀ {k k' k''}, Others k k' → Others k' k'' → Others k k''
  begin_keeps : ∀ {s}, Valid s →
    Valid (store.begin s).2 ∧ Others (contents s) (contents (store.begin s).2)
  begin_holds : ∀ {s tx s'}, Valid s → store.begin s = (.ok tx, s') → Holds [] tx s'
  addSource_keeps : ∀ {s tx deeds} request, Valid s → Holds deeds tx s →
    Valid (store.addSource request tx s).2.2 ∧
      Others (contents s) (contents (store.addSource request tx s).2.2)
  addSource_holds : ∀ {s tx deeds request content tx' s'}, Valid s → Holds deeds tx s →
    store.addSource request tx s = (.ok content, tx', s') →
    Holds (deeds ++ [.source request content]) tx' s'
  addFile_keeps : ∀ {s tx deeds} request, Valid s → Holds deeds tx s →
    Valid (store.addFile request tx s).2.2 ∧
      Others (contents s) (contents (store.addFile request tx s).2.2)
  addFile_holds : ∀ {s tx deeds request id tx' s'}, Valid s → Holds deeds tx s →
    store.addFile request tx s = (.ok id, tx', s') →
    Holds (deeds ++ [.file request id]) tx' s'
  /-- A commit that succeeds adds the deeds, at one moment. -/
  commit_ok : ∀ {s tx deeds s'}, Valid s → Holds deeds tx s → store.commit tx s = (.ok (), s') →
    Valid s' ∧ ∃ k k', Others (contents s) k ∧ Records deeds k k' ∧ Others k' (contents s')
  /-- A commit that does not succeed adds nothing. -/
  commit_not : ∀ {s tx}, Valid s → (store.commit tx s).1 ≠ .ok () →
    Valid (store.commit tx s).2 ∧ Others (contents s) (contents (store.commit tx s).2)
  rollback_keeps : ∀ {s} tx, Valid s →
    Valid (store.rollback tx s).2 ∧ Others (contents s) (contents (store.rollback tx s).2)
  drop_keeps : ∀ {s} tx, Valid s →
    Valid (store.drop tx s) ∧ Others (contents s) (contents (store.drop tx s))

/-! ## The relational database -/

namespace Relational

variable {tx tx' : Tx} {db db' : Db} {deeds : List Deed}

/-- What the deeds of a transaction make of the committed tables. -/
def Records (deeds : List Deed) (t t' : Tables) : Prop :=
  ∃ d, Replays ⟨t, []⟩ deeds d ∧ d.tables = t'

/-- An open transaction that holds deeds; if it has written, it has the write permit. -/
structure Holding (deeds : List Deed) (tx : Tx) (db : Db) : Prop where
  inv : tx.Inv db
  lock : tx.wrote = true → db.writing = true
  holds : tx.Holds db deeds

theorem Holding.done (h : Holding deeds tx db) {q : Request} {deed : Deed} {d : Draft}
    (hd : (tx.draft db).perform q = .ok (deed, d)) (hm : tx.MayWrite db) :
    Holding (deeds ++ [deed]) (tx.became db d) { db with writing := true } where
  inv := (h.inv.became hd hm).sameTables ⟨rfl, rfl, rfl⟩
  lock := fun _ => rfl
  holds := h.holds.became h.inv hd hm

theorem Holding.commit_valid (h : Holding deeds tx db) (hv : db.committed.WellFormed) :
    (tx.commit db).committed.WellFormed := by
  cases hw : tx.wrote with
  | true =>
    rw [Tx.commit_of_wrote hw]
    exact h.inv.draft.tables
  | false =>
    rw [Tx.commit_of_idle hw]
    exact hv

theorem release_keeps (hv : db.committed.WellFormed) (tx : Tx) :
    (db.release tx).committed.WellFormed ∧ db.committed = (db.release tx).committed := by
  rw [(Db.release_sameTables db tx).committed]
  exact ⟨hv, rfl⟩

/-- The promises that the relational database keeps while nobody else commits. -/
def contract : Relational.store.Contract Tables where
  contents db := db.committed
  Valid db := db.committed.WellFormed
  Holds := Holding
  Records := Records
  Others := Eq
  others_refl _ := rfl
  others_trans := Eq.trans
  begin_keeps hv := ⟨hv, rfl⟩
  begin_holds {db tx db'} hv hbegin := by
    simp only [Relational.store, Db.begin, Db.whileOpen] at hbegin
    cases hc : db.closed with
    | true =>
      rw [hc] at hbegin
      cases hbegin
    | false =>
      rw [hc] at hbegin
      cases hbegin
      exact ⟨Tx.fresh_inv hv, fun hw => (by cases hw), .fresh db⟩
  addSource_keeps {db tx deeds} request hv h := by
    rcases addSource_cases h.inv.draft h.lock request with ⟨_, _, _, _, hadd⟩ | ⟨_, _, hadd, _, _⟩ <;>
      rw [hadd] <;> exact ⟨hv, rfl⟩
  addSource_holds {db tx deeds request content tx' db'} hv h hadd := by
    rcases addSource_cases h.inv.draft h.lock request with ⟨_, d, hd, hm, hadd'⟩ | ⟨_, _, hadd', _, _⟩
    · rw [hadd'] at hadd
      cases hadd
      exact h.done hd hm
    · rw [hadd'] at hadd
      cases hadd
  addFile_keeps {db tx deeds} request hv h := by
    rcases addFile_cases h.inv.draft h.lock request with ⟨_, _, _, _, hadd⟩ | ⟨_, _, hadd, _, _⟩ <;>
      rw [hadd] <;> exact ⟨hv, rfl⟩
  addFile_holds {db tx deeds request id tx' db'} hv h hadd := by
    rcases addFile_cases h.inv.draft h.lock request with ⟨_, d, hd, hm, hadd'⟩ | ⟨_, _, hadd', _, _⟩
    · rw [hadd'] at hadd
      cases hadd
      exact h.done hd hm
    · rw [hadd'] at hadd
      cases hadd
  commit_ok {db tx deeds db'} hv h hcommit := by
    cases hcommit
    obtain ⟨d, hd, hcommitted⟩ := h.holds.commit
    exact ⟨h.commit_valid hv, _, _, rfl, ⟨d, hd, hcommitted.symm⟩, rfl⟩
  commit_not hv hne := absurd rfl hne
  rollback_keeps {db} tx hv := release_keeps hv tx
  drop_keeps {db} tx hv := release_keeps hv tx

end Relational

/-! ## The database in memory -/

/-- The row that stands for a deed. -/
def MemoryRows.ofDeed : Deed → MemoryRows
  | .source _ content => ⟨[⟨content.objectId, content.name⟩], [], []⟩
  | .file request id => ⟨[], [], [⟨id, request.parent, request.entry.name⟩]⟩
  | .image request content => ⟨[], request.paths.map fun p => ⟨content.objectId, p⟩, []⟩

/-- The rows that stand for deeds, in their order. -/
def MemoryRows.ofDeeds (deeds : List Deed) : MemoryRows :=
  deeds.foldl (fun rows deed => rows.append (ofDeed deed)) ⟨[], [], []⟩

theorem MemoryRows.ofDeeds_snoc (deeds : List Deed) (deed : Deed) :
    ofDeeds (deeds ++ [deed]) = (ofDeeds deeds).append (ofDeed deed) := by
  unfold ofDeeds
  rw [List.foldl_append]
  rfl

/-- The promises are kept by the database in memory as well: a commit adds the rows of the deeds. -/
def Memory.contract : Memory.store.Contract MemoryRows where
  contents db := db.rows
  Valid _ := True
  Holds deeds tx _ := tx.staged = .ofDeeds deeds
  Records deeds rows rows' := rows' = rows.append (.ofDeeds deeds)
  Others := Eq
  others_refl _ := rfl
  others_trans := Eq.trans
  begin_keeps _ := ⟨trivial, rfl⟩
  begin_holds {db tx db'} _ hbegin := by
    cases hbegin
    rfl
  addSource_keeps {db tx deeds} request _ _ := ⟨trivial, rfl⟩
  addSource_holds {db tx deeds request content tx' db'} _ h hadd := by
    cases hadd
    rw [MemoryRows.ofDeeds_snoc, ← h]
    simp [MemoryRows.append, MemoryRows.ofDeed]
  addFile_keeps {db tx deeds} request _ _ := ⟨trivial, rfl⟩
  addFile_holds {db tx deeds request id tx' db'} _ h hadd := by
    cases hadd
    rw [MemoryRows.ofDeeds_snoc, ← h]
    simp [MemoryRows.append, MemoryRows.ofDeed]
  commit_ok {db tx deeds db'} _ h hcommit := by
    cases hcommit
    refine ⟨trivial, db.rows, _, rfl, ?_, rfl⟩
    rw [← h]
    rfl
  commit_not _ hne := absurd rfl hne
  rollback_keeps _ _ := ⟨trivial, rfl⟩
  drop_keeps _ _ := ⟨trivial, rfl⟩

/-! ## Databases that fail on demand -/

namespace Store

variable {σ τ κ : Type} {store : Store σ τ}

/-- A call that is made to fail does not succeed. -/
theorem breakdown_reply_ne {α : Type} (b : Breakdown) (a : α) : (b.reply : Reply α) ≠ .ok a := by
  cases b <;> exact fun h => by cases h

/-- The promises are kept when calls fail on demand. -/
def Contract.withFaults (c : store.Contract κ) (faults : List Fault) :
    (store.withFaults faults).Contract κ where
  contents m := c.contents m.inner
  Valid m := c.Valid m.inner
  Holds deeds tx m := c.Holds deeds tx m.inner
  Records := c.Records
  Others := c.Others
  others_refl := c.others_refl
  others_trans := c.others_trans
  begin_keeps {m} hv := by
    simp only [Store.withFaults]
    split
    · exact ⟨hv, c.others_refl _⟩
    · exact c.begin_keeps hv
  begin_holds {m tx m'} hv hbegin := by
    simp only [Store.withFaults] at hbegin
    split at hbegin
    · exact absurd (congrArg Prod.fst hbegin) (breakdown_reply_ne _ tx)
    · obtain ⟨hanswer, rfl⟩ := Prod.mk.inj hbegin
      exact c.begin_holds hv (Prod.ext hanswer rfl)
  addSource_keeps {m tx deeds} request hv h := by
    simp only [Store.withFaults]
    split
    · exact ⟨hv, c.others_refl _⟩
    · exact c.addSource_keeps request hv h
  addSource_holds {m tx deeds request content tx' m'} hv h hadd := by
    simp only [Store.withFaults] at hadd
    split at hadd
    · exact absurd (congrArg Prod.fst hadd) (breakdown_reply_ne _ content)
    · obtain ⟨hanswer, hrest⟩ := Prod.mk.inj hadd
      obtain ⟨htx, rfl⟩ := Prod.mk.inj hrest
      exact c.addSource_holds hv h (Prod.ext hanswer (Prod.ext htx rfl))
  addFile_keeps {m tx deeds} request hv h := by
    simp only [Store.withFaults]
    split
    · exact ⟨hv, c.others_refl _⟩
    · exact c.addFile_keeps request hv h
  addFile_holds {m tx deeds request id tx' m'} hv h hadd := by
    simp only [Store.withFaults] at hadd
    split at hadd
    · exact absurd (congrArg Prod.fst hadd) (breakdown_reply_ne _ id)
    · obtain ⟨hanswer, hrest⟩ := Prod.mk.inj hadd
      obtain ⟨htx, rfl⟩ := Prod.mk.inj hrest
      exact c.addFile_holds hv h (Prod.ext hanswer (Prod.ext htx rfl))
  commit_ok {m tx deeds m'} hv h hcommit := by
    simp only [Store.withFaults] at hcommit
    split at hcommit
    · exact absurd (congrArg Prod.fst hcommit) (breakdown_reply_ne _ ())
    · obtain ⟨hanswer, rfl⟩ := Prod.mk.inj hcommit
      exact c.commit_ok hv h (Prod.ext hanswer rfl)
  commit_not {m tx} hv hne := by
    simp only [Store.withFaults] at hne ⊢
    split
    · exact c.drop_keeps tx hv
    · rename_i hnone
      rw [hnone] at hne
      exact c.commit_not hv hne
  rollback_keeps {m} tx hv := by
    simp only [Store.withFaults]
    split
    · exact c.drop_keeps tx hv
    · exact c.rollback_keeps tx hv
  drop_keeps {m} tx hv := c.drop_keeps tx hv

end Store

end Casefile
