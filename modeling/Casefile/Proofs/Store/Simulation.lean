import Casefile.Proofs.Store.Transactions
import Mathlib

/-!
# The database in memory stands for the relational one

* `Deed.erased` — what was recorded, without the ids; `Deed.name?` — the name it was answered with.
* `Corresponds` — what can be seen in the two databases is the same up to a renaming of the ids.
* `Abreast` — the same has been recorded in both, under ids that go up; `Exact` — under the same ids.
* `AtRest`, `Underway` — the two databases between transactions, and during one.

Principal results: `Abreast.perform` — a request keeps them abreast; `Underway.operate` — so do the
operations of a transaction, and `AtRest.transact` — a whole one.  `memory_simulates` — after
transactions one after another the two databases correspond.
-/

set_option autoImplicit false

namespace Casefile

/-! ## Deeds up to ids -/

namespace Deed

/-- What was recorded, without the ids. -/
def erased : Deed → Deed
  | .source request content => .source request { content with objectId := 0 }
  | .file request _ => .file ⟨0, 0, request.entry⟩ 0
  | .image request content => .image request { content with objectId := 0 }

/-- The name in the answer; a file is answered with its id only. -/
def name? : Deed → Option String
  | .source _ content => some content.name
  | .file _ _ => none
  | .image _ content => some content.name

theorem name?_erased (deed : Deed) : deed.erased.name? = deed.name? := by
  cases deed <;> rfl

theorem isSome_root?_erased (deed : Deed) : deed.erased.root?.isSome = deed.root?.isSome := by
  cases deed <;> rfl

theorem namedByFirst_erased (deed : Deed) : deed.erased.NamedByFirst ↔ deed.NamedByFirst := by
  cases deed <;> rfl

end Deed

/-- A row of a listing with its id renamed. -/
def SourceRow.renamed (rename : ObjectId → ObjectId) (r : SourceRow) : SourceRow :=
  ⟨rename r.objectId, r.name⟩

/-- An entry of a map of names with its id renamed. -/
def NameMap.renamed (rename : ObjectId → ObjectId) (e : ObjectId × String) : ObjectId × String :=
  (rename e.1, e.2)

namespace Deed

variable {rename : ObjectId → ObjectId} {a b : Deed}

theorem root?_renamed (he : b.erased = a.erased) (hid : b.id = rename a.id) :
    b.root? = a.root?.map (SourceRow.renamed rename) := by
  cases a <;> cases b <;> simp_all [erased, id, root?, SourceRow.renamed]

theorem segments_renamed (he : b.erased = a.erased) (hid : b.id = rename a.id) :
    b.segments = a.segments.map (SourceRow.renamed rename) := by
  cases a <;> cases b <;> simp_all [erased, id, segments, SourceRow.renamed]

theorem listed?_renamed (naming : Naming) (he : b.erased = a.erased) (hid : b.id = rename a.id) :
    b.listed? naming = (a.listed? naming).map (NameMap.renamed rename) := by
  cases a <;> cases b <;> simp_all [erased, id, listed?, NameMap.renamed]

/-- What is shown of each of some deeds is shown of them with other ids as well. -/
theorem flatMap_renamed {α : Type} {shown : Deed → List α} {renamed : α → α}
    (hshown : ∀ a b : Deed, b.erased = a.erased → b.id = rename a.id →
      shown b = (shown a).map renamed) :
    ∀ {deeds deeds' : List Deed}, deeds'.map erased = deeds.map erased →
      deeds'.map id = (deeds.map id).map rename →
      deeds'.flatMap shown = (deeds.flatMap shown).map renamed
  | [], [], _, _ => rfl
  | [], _ :: _, he, _ => by cases he
  | _ :: _, [], he, _ => by cases he
  | a :: deeds, b :: deeds', he, hid => by
    obtain ⟨hhead, htail⟩ := List.cons.inj he
    obtain ⟨hhead', htail'⟩ := List.cons.inj hid
    rw [List.flatMap_cons, List.flatMap_cons, List.map_append, hshown a b hhead hhead',
      flatMap_renamed hshown htail htail']

theorem filterMap_renamed {α : Type} {shown : Deed → Option α} {renamed : α → α}
    (hshown : ∀ a b : Deed, b.erased = a.erased → b.id = rename a.id →
      shown b = (shown a).map renamed)
    {deeds deeds' : List Deed} (he : deeds'.map erased = deeds.map erased)
    (hid : deeds'.map id = (deeds.map id).map rename) :
    deeds'.filterMap shown = (deeds.filterMap shown).map renamed := by
  rw [List.filterMap_eq_flatMap_toList, List.filterMap_eq_flatMap_toList]
  refine flatMap_renamed ?_ he hid
  intro a b he hid
  rw [hshown a b he hid, Option.toList_map]

/-- The number of logical sources among deeds does not depend on the ids. -/
theorem length_roots_erased (deeds : List Deed) :
    (deeds.filterMap root?).length = (deeds.map erased).countP fun deed => deed.root?.isSome := by
  rw [List.length_filterMap_eq_countP, List.countP_map]
  refine List.countP_congr fun deed _ => ?_
  rw [Function.comp_apply, isSome_root?_erased]

end Deed

/-- Two lists that go up, of the same length: one is the other renamed. -/
theorem exists_renaming {xs ys : List Int} (hx : xs.Pairwise (· < ·)) (hy : ys.Pairwise (· < ·))
    (hlength : ys.length = xs.length) :
    ∃ rename : Int → Int, ys = xs.map rename ∧
      ∀ a ∈ xs, ∀ b ∈ xs, a < b → rename a < rename b := by
  have hnodup : xs.Nodup := hx.imp Int.ne_of_lt
  have hmap : ys = xs.map fun x => ys.getD (xs.idxOf x) 0 := by
    refine List.ext_getElem (by rw [List.length_map, hlength]) fun i hi hi' => ?_
    have hi'' : i < xs.length := hlength ▸ hi
    rw [List.getElem_map, hnodup.idxOf_getElem i hi'']
    exact (List.getElem_eq_getD 0)
  refine ⟨fun x => ys.getD (xs.idxOf x) 0, hmap, ?_⟩
  generalize (fun x => ys.getD (xs.idxOf x) 0) = rename at hmap ⊢
  rw [hmap, List.pairwise_map] at hy
  have hup : xs.Pairwise fun a b => a < b → rename a < rename b :=
    hy.imp fun {a b} h (_ : a < b) => h
  have hdown : xs.Pairwise (flip fun a b => a < b → rename a < rename b) :=
    hx.imp fun h hlt => absurd hlt (Int.lt_asymm h)
  have hself : ∀ a ∈ xs, a < a → rename a < rename a := fun a _ h => absurd h (Int.lt_irrefl a)
  exact fun a ha b hb => hup.forall_of_forall_of_flip hself hdown ha hb

/-! ## What can be seen -/

/-- What can be seen in the two databases is the same, up to a renaming of the ids. -/
structure Corresponds (rename : ObjectId → ObjectId) (db : Db) (mem : MemoryDb) : Prop where
  logical : ∃ rows, Relational.store.logicalSources db = (.ok rows, db) ∧
    Memory.store.logicalSources mem = (.ok (rows.map (SourceRow.renamed rename)), mem)
  images : ∃ rows, Relational.store.imageSources db = (.ok rows, db) ∧
    Memory.store.imageSources mem = (.ok (rows.map (SourceRow.renamed rename)), mem)
  names : ∀ naming, ∃ names, NameMap.load naming Relational.store db = (.ok names, db) ∧
    NameMap.load naming Memory.store mem = (.ok (names.map (NameMap.renamed rename)), mem)

/-- The listings of the database in memory. -/
theorem MemoryRows.ofDeeds_listings (deeds : List Deed) :
    (ofDeeds deeds).logical = deeds.filterMap Deed.root? ∧
      (ofDeeds deeds).images = deeds.flatMap Deed.segments := by
  induction deeds using List.reverseRecOn with
  | nil => exact ⟨rfl, rfl⟩
  | append_singleton deeds deed ih =>
    rw [ofDeeds_snoc, List.filterMap_append, List.flatMap_append]
    simp only [append, ih.1, ih.2]
    cases deed <;> exact ⟨rfl, by simp [ofDeed, Deed.segments]⟩

theorem MemoryRows.append_assoc (a b c : MemoryRows) :
    (a.append b).append c = a.append (b.append c) := by
  simp only [append, List.append_assoc]

theorem MemoryRows.ofDeeds_append (deeds more : List Deed) :
    ofDeeds (deeds ++ more) = (ofDeeds deeds).append (ofDeeds more) := by
  induction more using List.reverseRecOn with
  | nil => simp [ofDeeds, append]
  | append_singleton more deed ih =>
    rw [← List.append_assoc, ofDeeds_snoc, ofDeeds_snoc, ih, append_assoc]

/-! ## Requests -/

/-- The same has been recorded in a draft and in the database in memory, in the same order and under ids that
go up. -/
structure Abreast (d : Draft) (lastId : Nat) (deeds deeds' : List Deed) : Prop where
  wellFormed : d.WellFormed
  shows : Shows d.tables deeds
  ids : deeds.map Deed.id = (List.range deeds.length).map fun k : Nat => (k : Int) + 1
  erased : deeds'.map Deed.erased = deeds.map Deed.erased
  ascending : deeds'.Pairwise fun a b => a.id < b.id
  within : ∀ deed ∈ deeds', deed.id ≤ lastId

/-- Under the same ids, and no id has been lost. -/
structure Exact (lastId : Nat) (deeds deeds' : List Deed) : Prop where
  ids : deeds'.map Deed.id = deeds.map Deed.id
  last : lastId = deeds.length

namespace Abreast

variable {d d' : Draft} {lastId : Nat} {deeds deeds' : List Deed} {deed : Deed} {op : Operation}
  {ids : List ObjectId}

theorem length_eq (h : Abreast d lastId deeds deeds') : deeds'.length = deeds.length := by
  simpa using congrArg List.length h.erased

theorem mono (h : Abreast d lastId deeds deeds') {lastId' : Nat} (hle : lastId ≤ lastId') :
    Abreast d lastId' deeds deeds' :=
  { h with within := fun deed hdeed => Int.le_trans (h.within deed hdeed) (Int.ofNat_le.2 hle) }

/-- Both number the next default name alike. -/
theorem sourceCount_eq (h : Abreast d lastId deeds deeds') :
    d.tables.rows.sourceCount = (deeds'.filterMap Deed.root?).length := by
  rw [h.shows.sourceCount_eq h.wellFormed.tables.rows, Deed.length_roots_erased,
    Deed.length_roots_erased, h.erased]

theorem nextId_eq (h : Abreast d lastId deeds deeds') : d.nextId = (deeds.length : Int) + 1 := by
  show (d.tables.rows.objects.length : Int) + 1 = _
  rw [h.shows.count]

theorem deed_id (h : Abreast d lastId deeds deeds')
    (hdone : d.perform (op.request ids) = .ok (deed, d')) : deed.id = (deeds.length : Int) + 1 := by
  rw [Draft.perform_deed hdone, Request.deed_id, h.nextId_eq]

/-- **A request that is done in both keeps them abreast.** -/
theorem perform (h : Abreast d lastId deeds deeds')
    (hdone : d.perform (op.request ids) = .ok (deed, d')) (ids' : List ObjectId) :
    Abreast d' (lastId + 1) (deeds ++ [deed]) (deeds' ++
      [(op.request ids').deed (deeds'.filterMap Deed.root?).length (Int.ofNat (lastId + 1))]) where
  wellFormed := h.wellFormed.perform hdone
  shows := h.shows.perform h.wellFormed hdone
  ids := by
    rw [List.map_append, h.ids, List.length_append, List.length_singleton, List.range_succ,
      List.map_append, List.map_singleton, List.map_singleton, h.deed_id hdone]
  erased := by
    rw [List.map_append, List.map_append, h.erased, Draft.perform_deed hdone, h.sourceCount_eq]
    congr 1
    cases op <;> rfl
  ascending := by
    rw [List.pairwise_append]
    refine ⟨h.ascending, List.pairwise_singleton _ _, fun a ha b hb => ?_⟩
    rw [List.mem_singleton.1 hb, Request.deed_id]
    exact Int.lt_of_le_of_lt (h.within a ha) (Int.ofNat_lt.2 (Nat.lt_succ_self lastId))
  within a ha := by
    rcases List.mem_append.1 ha with ha | ha
    · exact Int.le_trans (h.within a ha) (Int.ofNat_le.2 (Nat.le_succ lastId))
    · rw [List.mem_singleton.1 ha, Request.deed_id]
      exact Int.le_refl _

end Abreast

theorem Exact.snoc {lastId : Nat} {deeds deeds' : List Deed} {deed deed' : Deed}
    (h : Exact lastId deeds deeds') (hid : deed.id = (deeds.length : Int) + 1)
    (hid' : deed'.id = Int.ofNat (lastId + 1)) :
    Exact (lastId + 1) (deeds ++ [deed]) (deeds' ++ [deed']) where
  ids := by
    rw [List.map_append, List.map_append, h.ids, List.map_singleton, List.map_singleton, hid, hid',
      h.last]
    rfl
  last := by rw [h.last, List.length_append, List.length_singleton]

/-! ## Transactions -/

/-- The two databases between transactions.  No id has been lost if `NoneLost`. -/
structure AtRest (NoneLost : Prop) (db : Db) (mem : MemoryDb) (deeds deeds' : List Deed) : Prop where
  isOpen : db.closed = false
  free : db.writing = false
  healthy : mem.failing = false
  rows : mem.rows = .ofDeeds deeds'
  abreast : Abreast ⟨db.committed, []⟩ mem.lastId deeds deeds'
  exact : NoneLost → Exact mem.lastId deeds deeds'

/-- The two databases during a transaction that has recorded `done` in the one and `done'` in the other. -/
structure Underway (NoneLost : Prop) (earlier : List Operation) (db : Db) (tx : Tx) (mem : MemoryDb)
    (mtx : MemoryTx) (deeds deeds' done done' : List Deed) : Prop where
  isOpen : db.closed = false
  healthy : mem.failing = false
  rows : mem.rows = .ofDeeds deeds'
  committed : Abreast ⟨db.committed, []⟩ mem.lastId deeds deeds'
  holding : Relational.Holding done tx db
  mayWrite : tx.MayWrite db
  alone : db.writing = true → tx.wrote = true
  staged : mtx.staged = .ofDeeds done'
  abreast : Abreast (tx.draft db) mem.lastId (deeds ++ done) (deeds' ++ done')
  exact : NoneLost → Exact mem.lastId (deeds ++ done) (deeds' ++ done')
  length : done.length = earlier.length
  folders : ∀ i folder, earlier[i]? = some folder → folder.IsFolder →
    ∃ path, (tx.draft db).childPaths.lookup ((done.map Deed.id).getD i 0) = some path

variable {NoneLost : Prop} {earlier : List Operation} {db : Db} {tx : Tx} {mem : MemoryDb}
  {mtx : MemoryTx} {deeds deeds' done done' : List Deed}

theorem AtRest.begin (h : AtRest NoneLost db mem deeds deeds') :
    Underway NoneLost [] db .fresh mem ⟨⟨[], [], []⟩⟩ deeds deeds' [] [] where
  isOpen := h.isOpen
  healthy := h.healthy
  rows := h.rows
  committed := h.abreast
  holding := ⟨Tx.fresh_inv h.abreast.wellFormed.tables, fun hw => (by cases hw), .fresh db⟩
  mayWrite := Or.inr ⟨h.free, rfl⟩
  alone hw := by
    rw [h.free] at hw
    cases hw
  staged := rfl
  abreast := by
    rw [List.append_nil, List.append_nil]
    exact h.abreast
  exact := by
    rw [List.append_nil, List.append_nil]
    exact h.exact
  length := rfl
  folders i folder hfolder := by cases hfolder

namespace Underway

/-- What has been done in the transaction is the same, up to ids. -/
theorem done_erased (h : Underway NoneLost earlier db tx mem mtx deeds deeds' done done') :
    done'.map Deed.erased = done.map Deed.erased := by
  have herased := h.abreast.erased
  rw [List.map_append, List.map_append, h.committed.erased] at herased
  exact List.append_cancel_left herased

/-- Where the folders are once another operation has been done. -/
theorem folders_snoc {d : Draft} {op : Operation} {ids : List ObjectId} {deed : Deed}
    (h : Underway NoneLost earlier db tx mem mtx deeds deeds' done done')
    (hdone : (tx.draft db).perform (op.request ids) = .ok (deed, d)) :
    ∀ i folder, (earlier ++ [op])[i]? = some folder → folder.IsFolder →
      ∃ path, d.childPaths.lookup (((done ++ [deed]).map Deed.id).getD i 0) = some path := by
  intro i folder hi hfolder
  have hlength : (done.map Deed.id).length = earlier.length := by rw [List.length_map, h.length]
  rw [List.map_append, List.map_singleton]
  by_cases hlt : i < earlier.length
  · rw [List.getElem?_append_left hlt] at hi
    rw [List.getD_append _ _ _ _ (hlength ▸ hlt)]
    exact Draft.perform_childPaths hdone (h.folders i folder hi hfolder)
  · have hle : earlier.length ≤ i := Nat.le_of_not_lt hlt
    rw [List.getElem?_append_right hle] at hi
    obtain ⟨hnew, hop⟩ := List.getElem?_eq_some_iff.1 hi
    have hlast : i - earlier.length = 0 := by simpa using hnew
    have hfolder' : op.IsFolder := by
      simp only [hlast, List.getElem_cons_zero] at hop
      rw [hop]
      exact hfolder
    rw [List.getD_append_right _ _ _ _ (hlength ▸ hle), hlength, hlast]
    exact Draft.perform_folder hfolder' hdone

/-- **A proper operation is done in both databases.** -/
theorem perform {op : Operation}
    (h : Underway NoneLost earlier db tx mem mtx deeds deeds' done done') (hproper : op.Proper earlier) :
    ∃ deed deed' db₁ tx₁ mem₁ mtx₁,
      Relational.store.perform (op.request (done.map Deed.id)) tx db = (.ok deed, tx₁, db₁) ∧
      Memory.store.perform (op.request (done'.map Deed.id)) mtx mem = (.ok deed', mtx₁, mem₁) ∧
      Underway NoneLost (earlier ++ [op]) db₁ tx₁ mem₁ mtx₁ deeds deeds' (done ++ [deed])
        (done' ++ [deed']) := by
  obtain ⟨deed, d, hdone⟩ := Draft.perform_proper hproper h.folders
  have hcount : mem.rows.logical.length + mtx.staged.logical.length =
      ((deeds' ++ done').filterMap Deed.root?).length := by
    rw [h.rows, h.staged, (MemoryRows.ofDeeds_listings _).1, (MemoryRows.ofDeeds_listings _).1,
      List.filterMap_append, List.length_append]
  have hmemory := Memory.perform_eq (op.request (done'.map Deed.id)) mtx mem
  rw [hcount] at hmemory
  refine ⟨deed, _, _, _, _, _,
    Relational.perform_done h.holding.inv.draft h.holding.lock h.mayWrite hdone, hmemory, ?_⟩
  exact
    { isOpen := h.isOpen
      healthy := h.healthy
      rows := h.rows
      committed := h.committed.mono (Nat.le_succ mem.lastId)
      holding := h.holding.done hdone h.mayWrite
      mayWrite := Or.inl rfl
      alone := fun _ => rfl
      staged := by rw [MemoryRows.ofDeeds_snoc, h.staged]
      abreast := by
        rw [← List.append_assoc, ← List.append_assoc]
        exact h.abreast.perform hdone _
      exact := fun hnone => by
        rw [← List.append_assoc, ← List.append_assoc]
        exact (h.exact hnone).snoc (h.abreast.deed_id hdone) (Request.deed_id _ _ _)
      length := by rw [List.length_append, List.length_append, h.length]; rfl
      folders := h.folders_snoc hdone }

/-- **Proper operations are done in both databases**, one after another. -/
theorem operate :
    ∀ (ops : List Operation) {earlier : List Operation} {db : Db} {tx : Tx} {mem : MemoryDb}
      {mtx : MemoryTx} {done done' : List Deed},
      Underway NoneLost earlier db tx mem mtx deeds deeds' done done' →
      Operation.AllProper earlier ops →
      ∃ more more' db₁ tx₁ mem₁ mtx₁,
        Relational.store.operate ops (done.map Deed.id) tx db = (more.map .ok, tx₁, db₁) ∧
        Memory.store.operate ops (done'.map Deed.id) mtx mem = (more'.map .ok, mtx₁, mem₁) ∧
        Underway NoneLost (earlier ++ ops) db₁ tx₁ mem₁ mtx₁ deeds deeds' (done ++ more)
          (done' ++ more')
  | [], earlier, db, tx, mem, mtx, done, done', h, _ => by
    refine ⟨[], [], db, tx, mem, mtx, rfl, rfl, ?_⟩
    rw [List.append_nil, List.append_nil, List.append_nil]
    exact h
  | op :: ops, earlier, _, _, _, _, done, done', h, ⟨hop, hops⟩ => by
    obtain ⟨deed, deed', db₁, tx₁, mem₁, mtx₁, hperform, hperform', h₁⟩ := h.perform hop
    obtain ⟨more, more', db₂, tx₂, mem₂, mtx₂, hoperate, hoperate', h₂⟩ := operate ops h₁ hops
    refine ⟨deed :: more, deed' :: more', db₂, tx₂, mem₂, mtx₂, ?_, ?_, ?_⟩
    · rw [List.map_append] at hoperate
      simp only [Store.operate, hperform, List.map_cons]
      rw [show done.map Deed.id ++ [Reply.id (.ok deed)] = done.map Deed.id ++ [deed].map Deed.id from rfl,
        hoperate]
    · rw [List.map_append] at hoperate'
      simp only [Store.operate, hperform', List.map_cons]
      rw [show done'.map Deed.id ++ [Reply.id (.ok deed')] = done'.map Deed.id ++ [deed'].map Deed.id
        from rfl, hoperate']
    · rw [List.append_cons, List.append_cons done, List.append_cons done']
      exact h₂

/-- The committed tables after a transaction that ends without a commit. -/
theorem release (h : Underway NoneLost earlier db tx mem mtx deeds deeds' done done') {mem' : MemoryDb}
    (hrows : mem'.rows = mem.rows) (hlast : mem'.lastId = mem.lastId)
    (hfailing : mem'.failing = mem.failing) : AtRest False (db.release tx) mem' deeds deeds' where
  isOpen := (Db.release_sameTables db tx).closed.trans h.isOpen
  free := by
    cases hw : tx.wrote with
    | true => rw [Db.release_of_wrote hw]
    | false =>
      unfold Db.release
      rw [hw, if_neg (by decide)]
      exact Bool.eq_false_iff.2 fun hwriting => by
        rw [h.alone hwriting] at hw
        cases hw
  healthy := hfailing.trans h.healthy
  rows := hrows.trans h.rows
  abreast := by
    rw [(Db.release_sameTables db tx).committed, hlast]
    exact h.committed
  exact hfalse := hfalse.elim

/-- The committed tables after a commit. -/
theorem commit (h : Underway NoneLost earlier db tx mem mtx deeds deeds' done done') :
    AtRest NoneLost (tx.commit db) (mtx.commit mem) (deeds ++ done) (deeds' ++ done') where
  isOpen := by
    cases hw : tx.wrote with
    | true =>
      rw [Tx.commit_of_wrote hw]
      exact h.isOpen
    | false =>
      rw [Tx.commit_of_idle hw]
      exact h.isOpen
  free := by
    cases hw : tx.wrote with
    | true => rw [Tx.commit_of_wrote hw]
    | false =>
      rw [Tx.commit_of_idle hw]
      exact Bool.eq_false_iff.2 fun hwriting => by
        rw [h.alone hwriting] at hw
        cases hw
  healthy := h.healthy
  rows := by
    show mem.rows.append mtx.staged = _
    rw [h.rows, h.staged, MemoryRows.ofDeeds_append]
  abreast := by
    rw [Tx.commit_committed h.holding.inv h.mayWrite]
    exact { h.abreast with wellFormed := ⟨h.abreast.wellFormed.tables, fun _ _ hl => (by cases hl)⟩ }
  exact := h.exact

end Underway

/-- **A transaction has the same outcome in both databases**, and leaves them abreast. -/
theorem AtRest.transact (h : AtRest NoneLost db mem deeds deeds') {t : Transaction} (ht : t.Proper) :
    ∃ done done' more more' : List Deed,
      (Relational.store.transact t db).1 = ⟨done.map .ok, .ok ()⟩ ∧
      (Memory.store.transact t mem).1 = ⟨done'.map .ok, .ok ()⟩ ∧
      done'.map Deed.erased = done.map Deed.erased ∧ done.length = t.operations.length ∧
      AtRest (NoneLost ∧ t.finish = .commit) (Relational.store.transact t db).2
        (Memory.store.transact t mem).2 (deeds ++ more) (deeds' ++ more') := by
  obtain ⟨done, done', db₁, tx₁, mem₁, mtx₁, hoperate, hoperate', h₁⟩ := h.begin.operate t.operations ht
  have hbegin : Relational.store.begin db = (.ok .fresh, db) := by
    simp only [Relational.store, Db.begin, Db.whileOpen, h.isOpen]
    rfl
  have hbegin' : Memory.store.begin mem = (.ok ⟨⟨[], [], []⟩⟩, mem) := rfl
  simp only [List.nil_append, List.map_nil] at hoperate hoperate' h₁
  simp only [Store.transact, hbegin, hbegin', hoperate, hoperate']
  cases hfinish : t.finish with
  | commit =>
    refine ⟨done, done', done, done', rfl, rfl, h₁.done_erased, h₁.length, ?_⟩
    have hcommit := h₁.commit
    exact { hcommit with exact := fun hnone => hcommit.exact hnone.1 }
  | rollback =>
    refine ⟨done, done', [], [], rfl, rfl, h₁.done_erased, h₁.length, ?_⟩
    rw [List.append_nil, List.append_nil]
    have hrest : AtRest False (db₁.release tx₁) { mem₁ with rollbacks := mem₁.rollbacks + 1 } deeds deeds' :=
      h₁.release rfl rfl rfl
    exact { hrest with exact := fun hnone => by cases hnone.2 }
  | drop =>
    refine ⟨done, done', [], [], rfl, rfl, h₁.done_erased, h₁.length, ?_⟩
    rw [List.append_nil, List.append_nil]
    have hrest : AtRest False (db₁.release tx₁) mem₁ deeds deeds' := h₁.release rfl rfl rfl
    exact { hrest with exact := fun hnone => by cases hnone.2 }

/-- **So do transactions one after another.** -/
theorem AtRest.answers :
    ∀ (ts : List Transaction) {NoneLost : Prop} {db : Db} {mem : MemoryDb} {deeds deeds' : List Deed},
      AtRest NoneLost db mem deeds deeds' → (∀ t ∈ ts, t.Proper) →
      ∃ done done' : List (List Deed),
        (Relational.store.transactAll ts db).1 = done.map (fun ds => ⟨ds.map .ok, .ok ()⟩) ∧
        (Memory.store.transactAll ts mem).1 = done'.map (fun ds => ⟨ds.map .ok, .ok ()⟩) ∧
        done'.map (·.map Deed.erased) = done.map (·.map Deed.erased) ∧
        done.map List.length = ts.map (·.operations.length)
  | [], _, _, _, _, _, _, _ => ⟨[], [], rfl, rfl, rfl, rfl⟩
  | t :: ts, _, _, _, _, _, h, hproper => by
    obtain ⟨done, done', _, _, hanswers, hanswers', herased, hlength, h₁⟩ :=
      h.transact (hproper t (List.mem_cons.2 (Or.inl rfl)))
    obtain ⟨rest, rest', hrest, hrest', herased', hlength'⟩ :=
      answers ts h₁ fun u hu => hproper u (List.mem_cons_of_mem t hu)
    refine ⟨done :: rest, done' :: rest', ?_, ?_, ?_, ?_⟩
    · simp only [Store.transactAll, List.map_cons, hanswers, hrest]
    · simp only [Store.transactAll, List.map_cons, hanswers', hrest']
    · rw [List.map_cons, List.map_cons, herased, herased']
    · rw [List.map_cons, List.map_cons, hlength, hlength']

/-- **What is committed after some of the transactions comes first in what is committed after all.** -/
theorem AtRest.prefixes :
    ∀ (ts : List Transaction) {NoneLost : Prop} {db : Db} {mem : MemoryDb} {deeds deeds' : List Deed},
      AtRest NoneLost db mem deeds deeds' → (∀ t ∈ ts, t.Proper) →
      ∃ final final', deeds <+: final ∧ deeds' <+: final' ∧
        (∃ NoneLost', AtRest NoneLost' (Relational.store.transactAll ts db).2
          (Memory.store.transactAll ts mem).2 final final') ∧
        ∀ before, before <+: ts → ∃ ds ds', ds <+: final ∧ ds' <+: final' ∧
          AtRest (NoneLost ∧ ∀ t ∈ before, t.finish = .commit)
            (Relational.store.transactAll before db).2 (Memory.store.transactAll before mem).2 ds ds'
  | [], NoneLost, db, mem, deeds, deeds', h, _ => by
    refine ⟨deeds, deeds', List.prefix_rfl, List.prefix_rfl, ⟨NoneLost, h⟩, fun before hbefore => ?_⟩
    rw [List.prefix_nil.1 hbefore]
    exact ⟨deeds, deeds', List.prefix_rfl, List.prefix_rfl, { h with exact := fun hn => h.exact hn.1 }⟩
  | t :: ts, NoneLost, db, mem, deeds, deeds', h, hproper => by
    obtain ⟨_, _, more, more', _, _, _, _, h₁⟩ := h.transact (hproper t (List.mem_cons.2 (Or.inl rfl)))
    obtain ⟨final, final', hfinal, hfinal', hall, hprefixes⟩ :=
      prefixes ts h₁ fun u hu => hproper u (List.mem_cons_of_mem t hu)
    have hdeeds : deeds <+: final := (List.prefix_append deeds more).trans hfinal
    have hdeeds' : deeds' <+: final' := (List.prefix_append deeds' more').trans hfinal'
    refine ⟨final, final', hdeeds, hdeeds', hall, fun before hbefore => ?_⟩
    rcases List.prefix_cons_iff.1 hbefore with rfl | ⟨before', rfl, hbefore'⟩
    · exact ⟨deeds, deeds', hdeeds, hdeeds', { h with exact := fun hn => h.exact hn.1 }⟩
    · obtain ⟨ds, ds', hds, hds', hrest⟩ := hprefixes before' hbefore'
      refine ⟨ds, ds', hds, hds', { hrest with exact := fun hn => hrest.exact ⟨⟨hn.1, ?_⟩, ?_⟩ }⟩
      · exact hn.2 t (List.mem_cons.2 (Or.inl rfl))
      · exact fun u hu => hn.2 u (List.mem_cons_of_mem t hu)

/-- Two databases at rest correspond, by any renaming of the ids in the one to those in the other. -/
theorem AtRest.corresponds (h : AtRest NoneLost db mem deeds deeds') {rename : ObjectId → ObjectId}
    (hids : deeds'.map Deed.id = (deeds.map Deed.id).map rename) : Corresponds rename db mem := by
  have hcomplete := h.abreast.wellFormed.tables.complete
  have hshows : Shows db.committed deeds := h.abreast.shows
  have herased := h.abreast.erased
  have hnamed : ∀ deed ∈ deeds', deed.NamedByFirst := by
    intro deed hdeed
    rw [← Deed.namedByFirst_erased]
    obtain ⟨other, hother, heq⟩ := List.mem_map.1 (herased ▸ List.mem_map_of_mem hdeed)
    rw [← heq, Deed.namedByFirst_erased]
    exact hshows.named other hother
  have hlogical : Memory.store.logicalSources mem = (.ok (deeds'.filterMap Deed.root?), mem) := by
    simp only [Memory.store, MemoryDb.logicalSources, MemoryDb.query, h.healthy, h.rows,
      (MemoryRows.ofDeeds_listings deeds').1]
    rfl
  have himages : Memory.store.imageSources mem = (.ok (deeds'.flatMap Deed.segments), mem) := by
    simp only [Memory.store, MemoryDb.imageSources, MemoryDb.query, h.healthy, h.rows,
      (MemoryRows.ofDeeds_listings deeds').2]
    rfl
  refine ⟨⟨_, hshows.logicalSources hcomplete h.isOpen, ?_⟩,
    ⟨_, hshows.imageSources hcomplete h.isOpen, ?_⟩,
    fun naming => ⟨_, hshows.load hcomplete h.isOpen naming, ?_⟩⟩
  · rw [hlogical, Deed.filterMap_renamed (fun a b => Deed.root?_renamed) herased hids]
  · rw [himages, Deed.flatMap_renamed (fun a b => Deed.segments_renamed) herased hids]
  · rw [← Deed.filterMap_renamed (fun a b => Deed.listed?_renamed naming) herased hids]
    unfold NameMap.load
    simp only [hlogical, himages, Deed.merge_eq naming h.abreast.ascending hnamed]

/-- The ids of committed objects are those of the deeds. -/
theorem AtRest.has_iff (h : AtRest NoneLost db mem deeds deeds') (id : ObjectId) :
    db.committed.rows.Has id ↔ id ∈ deeds.map Deed.id := by
  have hids := h.abreast.wellFormed.tables.rows.ids
  have hcount : db.committed.rows.objects.length = deeds.length := h.abreast.shows.count
  unfold Rows.Has
  rw [h.abreast.ids, ← hcount]
  constructor
  · rintro ⟨o, ho, rfl⟩
    exact hids ▸ List.mem_map_of_mem ho
  · intro hid
    exact List.mem_map.1 (hids.symm ▸ hid)

theorem atRest_start (now : Int) :
    AtRest True (.ofTables (.fresh now)) .empty [] [] where
  isOpen := rfl
  free := rfl
  healthy := rfl
  rows := rfl
  abreast :=
    { wellFormed := ⟨Tables.fresh_wellFormed now, fun _ _ hl => (by cases hl)⟩
      shows := Shows.fresh now
      ids := rfl
      erased := rfl
      ascending := List.Pairwise.nil
      within := fun _ hdeed => (by cases hdeed) }
  exact _ := ⟨rfl, rfl⟩

/-- **The database in memory stands for the relational one**: after proper transactions one after
another, from empty databases on, every operation has been answered with the same name, and what can be
seen after each transaction is the same up to one renaming of the committed ids.  It keeps their
order, and it leaves the ids as they are as long as every transaction has committed. -/
theorem memory_simulates (now : Int) (ts : List Transaction) (hproper : ∀ t ∈ ts, t.Proper) :
    let relational (ts : List Transaction) :=
      Relational.store.transactAll ts (.ofTables (.fresh now))
    let memory (ts : List Transaction) := Memory.store.transactAll ts .empty
    (∃ done done' : List (List Deed),
      (relational ts).1 = done.map (fun ds => ⟨ds.map .ok, .ok ()⟩) ∧
      (memory ts).1 = done'.map (fun ds => ⟨ds.map .ok, .ok ()⟩) ∧
      done'.map (·.map Deed.name?) = done.map (·.map Deed.name?) ∧
      done.map List.length = ts.map (·.operations.length)) ∧
    ∃ rename : ObjectId → ObjectId, ∀ before, before <+: ts →
      Corresponds rename (relational before).2 (memory before).2 ∧
      (∀ a b, (relational before).2.committed.rows.Has a →
        (relational before).2.committed.rows.Has b → a < b → rename a < rename b) ∧
      ((∀ t ∈ before, t.finish = .commit) →
        ∀ id, (relational before).2.committed.rows.Has id → rename id = id) := by
  intro relational memory
  have hstart := atRest_start now
  refine ⟨?_, ?_⟩
  · obtain ⟨done, done', hdone, hdone', herased, hlength⟩ := hstart.answers ts hproper
    refine ⟨done, done', hdone, hdone', ?_, hlength⟩
    have hname : ∀ ds : List Deed, ds.map Deed.name? = (ds.map Deed.erased).map Deed.name? := by
      intro ds
      rw [List.map_map]
      exact List.map_congr_left fun deed _ => (Deed.name?_erased deed).symm
    have hnames : ∀ dss : List (List Deed),
        dss.map (·.map Deed.name?) = (dss.map (·.map Deed.erased)).map (·.map Deed.name?) := by
      intro dss
      rw [List.map_map]
      exact List.map_congr_left fun ds _ => hname ds
    rw [hnames done', herased, ← hnames done]
  · obtain ⟨final, final', _, _, ⟨_, hall⟩, hprefixes⟩ := hstart.prefixes ts hproper
    have hascending : (final.map Deed.id).Pairwise (· < ·) :=
      List.pairwise_map.2 hall.abreast.shows.ids
    have hascending' : (final'.map Deed.id).Pairwise (· < ·) :=
      List.pairwise_map.2 hall.abreast.ascending
    obtain ⟨rename, hrename, hmono⟩ := exists_renaming hascending hascending'
      (by rw [List.length_map, List.length_map, hall.abreast.length_eq])
    refine ⟨rename, fun before hbefore => ?_⟩
    obtain ⟨ds, ds', ⟨rest, rfl⟩, ⟨rest', rfl⟩, hrest⟩ := hprefixes before hbefore
    rw [List.map_append] at hmono
    rw [List.map_append, List.map_append, List.map_append] at hrename
    have hids : ds'.map Deed.id = (ds.map Deed.id).map rename := by
      refine (List.append_inj hrename ?_).1
      rw [List.length_map, List.length_map, List.length_map, hrest.abreast.length_eq]
    refine ⟨hrest.corresponds hids, ?_, ?_⟩
    · intro a b ha hb hlt
      exact hmono a (List.mem_append_left _ ((hrest.has_iff a).1 ha)) b
        (List.mem_append_left _ ((hrest.has_iff b).1 hb)) hlt
    · intro hcommitted id hid
      have hexact := (hrest.exact ⟨trivial, hcommitted⟩).ids
      rw [hids] at hexact
      exact List.map_inj_left.1 (hexact.trans (List.map_id _).symm) id ((hrest.has_iff id).1 hid)

/-- A transaction that is rolled back and one that is dropped, each before one that is committed; in the last
one there are a default name and a file in a directory. -/
def mixedTransactions : List Transaction :=
  [⟨[.source ⟨⟨"dev"⟩, none, "+00:00", 5⟩, .file (·.headD 0) 0 (folderEntry "docs"),
      .file (·.headD 0) 1 (fileEntry "x" 1)], .rollback⟩,
    ⟨[.image ⟨⟨"dev"⟩, ["d.001", "d.002"], "+00:00", 5⟩], .commit⟩,
    ⟨[.source ⟨⟨"dev"⟩, none, "+00:00", 5⟩], .drop⟩,
    ⟨[.source ⟨⟨"dev"⟩, none, "+00:00", 5⟩, .file (·.headD 0) 0 (folderEntry "docs"),
      .file (·.headD 0) 1 (fileEntry "x" 1), .source ⟨⟨"dev"⟩, some "Case 1", "+00:00", 5⟩], .commit⟩]

theorem memory_simulates_mixed :
    (∀ t ∈ mixedTransactions, t.Proper) ∧
      ∃ rename : ObjectId → ObjectId, rename 1 = 4 ∧ rename 2 = 6 ∧ rename 5 = 9 ∧
        Corresponds rename
          (Relational.store.transactAll mixedTransactions (.ofTables (.fresh 0))).2
          (Memory.store.transactAll mixedTransactions .empty).2 := by
  have hproper : ∀ t ∈ mixedTransactions, t.Proper := by
    simp [mixedTransactions, Transaction.Proper, Operation.AllProper, Operation.Proper,
      Operation.IsFolder, folderEntry, fileEntry, Tx.maxSize]
  obtain ⟨_, rename, h⟩ := memory_simulates 0 mixedTransactions hproper
  obtain ⟨hcorresponds, _, _⟩ := h mixedTransactions List.prefix_rfl
  refine ⟨hproper, rename, ?_⟩
  obtain ⟨names, hnames, hnames'⟩ := hcorresponds.names .full
  have hlisted : (NameMap.load .full Relational.store
      (Relational.store.transactAll mixedTransactions (.ofTables (.fresh 0))).2).1 =
      .ok [(1, "d.001"), (2, "LogicalFileSet1"), (5, "Case 1")] := by cbv
  have hlisted' : (NameMap.load .full Memory.store
      (Memory.store.transactAll mixedTransactions .empty).2).1 =
      .ok [(4, "d.001"), (6, "LogicalFileSet1"), (9, "Case 1")] := by cbv
  have hrow := hlisted.symm.trans (congrArg Prod.fst hnames)
  have hrow' := hlisted'.symm.trans (congrArg Prod.fst hnames')
  cases hrow
  simp only [List.map_cons, List.map_nil, NameMap.renamed, Prod.mk.injEq, Reply.ok.injEq,
    List.cons.injEq, and_true] at hrow'
  exact ⟨hrow'.1.symm, hrow'.2.1.symm, hrow'.2.2.symm, hcorresponds⟩

end Casefile
