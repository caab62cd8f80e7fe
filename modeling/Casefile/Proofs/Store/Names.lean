import Casefile.Proofs.NameMap
import Casefile.Proofs.Store.Serial
import Casefile.Proofs.Tables.Listing
import Mathlib.Data.List.Pairwise

/-!
# The names of what has been committed

* `Session.log`, `historyLedger` — the calls of a history with their answers, and what can be read off them.
* `Deed.id`, `Deed.listed?` — the object that a deed has recorded, and the entry of a map of names that
  stands for it: a file has none, and an image has one, however many segments it has.
* `Ledger.names` — the entries for all that has been committed.
* `Shows` — the invariant: the listings of some tables show what some deeds have recorded, and the k-th
  deed has recorded the object with the id k.

Principal results: `Shows.perform` and `Shows.serial` — a request, and so any number of committed
transactions, add to the listings what they have recorded.  `history_load` — the names that are
loaded after any history are those of what has been committed.  `history_names` — so the keys are the
ids of the committed sources and images, and an entry stays once it is there.
-/

set_option autoImplicit false

namespace Casefile

/-! ## The log of a history -/

/-- The calls of a history from a session on, with their answers. -/
def Session.log : Session Db Tx → List Event → List (Action × Answer)
  | _, [] => []
  | s, .call a :: events =>
    (a, (s.step Relational.store a).1) :: (s.step Relational.store a).2.log events
  | s, .reopen now :: events => (s.reopen now).log events

/-- What the transactions of a history have done, by the calls and the answers to them. -/
def historyLedger (now : Int) (events : List Event) : Ledger :=
  .ofLog ((Session.start (.ofTables (.fresh now))).log events)

theorem Session.log_append :
    ∀ (events more : List Event) (s : Session Db Tx),
      s.log (events ++ more) = s.log events ++ (events.foldl Session.occur s).log more
  | [], _, _ => rfl
  | .call a :: events, more, s => by
    simp only [List.cons_append, log, List.foldl_cons]
    rw [log_append events more]
    rfl
  | .reopen now :: events, more, s => by
    simp only [List.cons_append, log, List.foldl_cons]
    rw [log_append events more]
    rfl

namespace Ledger

variable {t : Tables} {l : Ledger} {s : Session Db Tx}

/-- Opening a case anew leaves what is committed, and no open transaction. -/
theorem Fits.reopen (h : l.Fits t s) (hi : s.Inv) (now : Int) : l.Fits t (s.reopen now) := by
  rw [hi.reopen_eq]
  refine ⟨h.settled, ?_⟩
  intro name tx hf
  cases hf

/-- **After any history the ledger of its log fits the session.** -/
theorem Fits.log :
    ∀ (events : List Event) {l : Ledger} {s : Session Db Tx}, l.Fits t s → s.Inv →
      ((s.log events).foldl note l).Fits t (events.foldl Session.occur s)
  | [], _, _, h, _ => h
  | .call a :: events, _, _, h, hi => Fits.log events (h.step hi a) (hi.step a)
  | .reopen now :: events, _, _, h, hi =>
    Fits.log events (h.reopen hi now) (hi.occur (.reopen now))

/-- What is settled stays, and comes first. -/
theorem note_settled_extends (l : Ledger) (entry : Action × Answer) :
    l.settled <+: (l.note entry).settled := by
  unfold note
  split
  · exact List.prefix_rfl
  · exact List.prefix_rfl
  · exact List.prefix_rfl
  · exact List.prefix_rfl
  · exact List.prefix_append _ _
  · exact List.prefix_rfl

theorem foldl_note_settled_extends :
    ∀ (log : List (Action × Answer)) (l : Ledger), l.settled <+: (log.foldl note l).settled
  | [], _ => List.prefix_rfl
  | entry :: log, l => (l.note_settled_extends entry).trans (foldl_note_settled_extends log _)

/-- All that has been committed, in order. -/
def deeds (l : Ledger) : List Deed :=
  l.settled.flatMap (·.deeds)

end Ledger

theorem historyLedger_fits (now : Int) (events : List Event) :
    (historyLedger now events).Fits (.fresh now) (history now events) :=
  (Ledger.fits_start (.fresh now)).log events (Session.start_inv (Tables.fresh_wellFormed now))

/-- What a history has committed comes first in what a longer one has. -/
theorem historyLedger_deeds_extend (now : Int) (events more : List Event) :
    (historyLedger now events).deeds <+: (historyLedger now (events ++ more)).deeds := by
  obtain ⟨later, hlater⟩ := Ledger.foldl_note_settled_extends
    ((events.foldl Session.occur (.start (.ofTables (.fresh now)))).log more)
    (historyLedger now events)
  refine ⟨later.flatMap (·.deeds), ?_⟩
  unfold Ledger.deeds
  rw [← List.flatMap_append, hlater]
  unfold historyLedger Ledger.ofLog
  rw [Session.log_append, List.foldl_append]

/-! ## What stands for a deed in the listings -/

namespace Deed

/-- The object that was recorded. -/
def id : Deed → ObjectId
  | .source _ content => content.objectId
  | .file _ id => id
  | .image _ content => content.objectId

/-- What is shown among the logical sources. -/
def root? : Deed → Option SourceRow
  | .source _ content => some ⟨content.objectId, content.name⟩
  | _ => none

/-- What is shown among the images: one row for each segment. -/
def segments : Deed → List SourceRow
  | .image request content => request.paths.map fun path => ⟨content.objectId, path⟩
  | _ => []

/-- The entry in a map of names. -/
def listed? (naming : Naming) : Deed → Option (ObjectId × String)
  | .source _ content => some (content.objectId, content.name)
  | .file _ _ => none
  | .image _ content => some (content.objectId, naming.image content.name)

/-- An image is answered with the path of its first segment. -/
def NamedByFirst : Deed → Prop
  | .image request content => request.paths.head? = some content.name
  | _ => True

theorem id_of_root? {deed : Deed} {r : SourceRow} (h : deed.root? = some r) :
    r.objectId = deed.id := by
  cases deed <;> cases h
  rfl

theorem id_of_segments {deed : Deed} {r : SourceRow} (h : r ∈ deed.segments) :
    r.objectId = deed.id := by
  cases deed with
  | image request content =>
    obtain ⟨path, _, rfl⟩ := List.mem_map.1 h
    rfl
  | source => cases h
  | file => cases h

theorem id_of_listed? {naming : Naming} {deed : Deed} {e : ObjectId × String}
    (h : deed.listed? naming = some e) : e.1 = deed.id := by
  cases deed <;> cases h <;> rfl

end Deed

/-- The names of all that has been committed. -/
def Ledger.names (naming : Naming) (l : Ledger) : NameMap :=
  l.deeds.filterMap (Deed.listed? naming)

/-- The number of logical sources is that of the rows in their listing. -/
theorem Rows.WellFormed.sourceCount_eq {r : Rows} (h : r.WellFormed) :
    r.sourceCount = r.rootNames.length := by
  unfold Rows.sourceCount Rows.rootNames
  rw [List.length_map, ← List.countP_eq_length_filter]
  refine List.countP_congr fun f hf => ?_
  obtain ⟨o, ho, hid⟩ := h.files f hf
  have hobject : r.objects.any (·.id = f.id) = true := List.any_eq_true.2 ⟨o, ho, decide_eq_true hid⟩
  unfold Tables.SourceKeys.has Rows.sourceKeys
  rw [hobject, Bool.and_true]

/-- The listings of the tables show what the deeds have recorded, one object each with ids from 1 on. -/
structure Shows (t : Tables) (deeds : List Deed) : Prop where
  count : t.rows.objects.length = deeds.length
  ids : deeds.Pairwise fun a b => a.id < b.id
  below : ∀ deed ∈ deeds, deed.id < t.rows.nextId
  named : ∀ deed ∈ deeds, deed.NamedByFirst
  roots : t.rows.rootNames = (deeds.filterMap Deed.root?).map SourceRow.stored
  segments : t.rows.segmentNames =
    (deeds.flatMap Deed.segments).map SourceRow.stored
  inOrder : t.rows.SegmentsInOrder

namespace Shows

variable {t t' : Tables} {d d' : Draft} {q : Request} {deed : Deed} {deeds : List Deed}

theorem fresh (now : Int) : Shows (.fresh now) [] where
  count := rfl
  ids := List.Pairwise.nil
  below := by
    intro deed hdeed
    cases hdeed
  named := by
    intro deed hdeed
    cases hdeed
  roots := rfl
  segments := rfl
  inOrder := List.Pairwise.nil

/-- The number of logical sources is that of the sources among the deeds. -/
theorem sourceCount_eq (h : Shows t deeds) (ht : t.rows.WellFormed) :
    t.rows.sourceCount = (deeds.filterMap Deed.root?).length := by
  rw [ht.sourceCount_eq, h.roots, List.length_map]

/-- A new object comes behind all others, whatever it is. -/
theorem snoc (h : Shows t deeds) (hc : t.Complete) {a : Rows} {o : ObjectRow} (hone : a.objects = [o])
    (hid : deed.id = t.rows.nextId) (hnamed : deed.NamedByFirst)
    (hroots : (t.rows ++ a).rootNames = t.rows.rootNames ++ deed.root?.toList.map SourceRow.stored)
    (hsegments : (t.rows ++ a).segmentNames =
      t.rows.segmentNames ++ deed.segments.map SourceRow.stored)
    (hinOrder : (t.rows ++ a).SegmentsInOrder) : Shows (t.plus a) (deeds ++ [deed]) := by
  have hrows : (t.plus a).rows = t.rows ++ a := Tables.rows_plus hc a
  have hlength : (t.rows ++ a).objects.length = t.rows.objects.length + 1 := by
    rw [Rows.append_objects, hone, List.length_append]
    rfl
  have hnext : (t.rows ++ a).nextId = t.rows.nextId + 1 := by
    unfold Rows.nextId
    rw [hlength]
    rfl
  refine ⟨?_, ?_, ?_, ?_, ?_, ?_, ?_⟩
  · rw [hrows, hlength, h.count, List.length_append]
    rfl
  · rw [List.pairwise_append]
    refine ⟨h.ids, List.pairwise_singleton _ _, ?_⟩
    intro x hx y hy
    rw [List.mem_singleton.1 hy, hid]
    exact h.below x hx
  · intro x hx
    rw [hrows, hnext]
    rcases List.mem_append.1 hx with hx | hx
    · have hlt := h.below x hx
      lia
    · rw [List.mem_singleton.1 hx, hid]
      lia
  · intro x hx
    rcases List.mem_append.1 hx with hx | hx
    · exact h.named x hx
    · rw [List.mem_singleton.1 hx]
      exact hnamed
  · rw [hrows, hroots, h.roots, List.filterMap_append, List.map_append]
    congr 2
  · rw [hrows, hsegments, h.segments, List.flatMap_append, List.map_append, List.flatMap_singleton]
  · rw [hrows]
    exact hinOrder

/-- **A request that is done adds to the listings what it has recorded.** -/
theorem perform (h : Shows d.tables deeds) (hd : d.WellFormed) (hp : d.perform q = .ok (deed, d')) :
    Shows d'.tables (deeds ++ [deed]) := by
  have hr : d.tables.rows.WellFormed := hd.tables.rows
  unfold Draft.perform at hp
  split at hp
  · -- a source: its root is one more logical source
    rename_i request
    cases hp
    have hsame := hr.listedSegments_of_none
      (Rows.source_about _ request (d.tables.rows.nameFor request.name?)) rfl
    refine h.snoc hd.tables.complete rfl rfl trivial (hr.rootNames_source request _) ?_
      (h.inOrder.same hsame)
    exact (Rows.segmentNames_congr hsame).trans (List.append_nil _).symm
  · split at hp
    · cases hp
    · rename_i request _ path _
      split at hp
      · cases hp
      · -- a file or directory is not shown
        cases hp
        have hsame := hr.listedSegments_of_none (Rows.file_about _ request path) rfl
        refine h.snoc hd.tables.complete rfl rfl trivial ?_ ?_ (h.inOrder.same hsame)
        · exact (hr.rootNames_file request path).trans (List.append_nil _).symm
        · exact (Rows.segmentNames_congr hsame).trans (List.append_nil _).symm
  · rename_i request
    split at hp
    · cases hp
    · -- an image: all its segments are shown
      rename_i first rest hpaths
      cases hp
      have hnamed : request.paths.head? = some first := by rw [hpaths]; rfl
      refine h.snoc hd.tables.complete rfl rfl hnamed ?_ (hr.segmentNames_image request)
        (hr.segmentsInOrder_image h.inOrder request)
      exact (hr.rootNames_image request).trans (List.append_nil _).symm

/-- Deeds done again add to the listings what they have recorded. -/
theorem replays (more : List Deed) {d d' : Draft} {deeds : List Deed} (h : Shows d.tables deeds)
    (hd : d.WellFormed) (hr : Replays d more d') : Shows d'.tables (deeds ++ more) ∧ d'.WellFormed :=
  Replays.preserves (fun hd hp h => h.perform hd hp) more h hd hr

/-- **Committed transactions, one after another, add to the listings what they have recorded.** -/
theorem serial (cs : List Committed) {t t' : Tables} {deeds : List Deed} (h : Shows t deeds)
    (ht : t.WellFormed) (hs : Serial t cs t') : Shows t' (deeds ++ cs.flatMap (·.deeds)) :=
  Serial.preserves (fun hd hp h => h.perform hd hp) cs h ht hs

end Shows

/-! ## What is loaded -/

/-- A map has no other ids than those of the deeds. -/
theorem Deed.find?_listed_eq_none {naming : Naming} {deeds : List Deed} {id : ObjectId}
    (h : ∀ deed ∈ deeds, deed.id ≠ id) :
    NameMap.find? (deeds.filterMap (Deed.listed? naming)) id = none := by
  refine NameMap.find?_eq_none ?_
  intro e he
  obtain ⟨deed, hdeed, hlisted⟩ := List.mem_filterMap.1 he
  rw [Deed.id_of_listed? hlisted]
  exact h deed hdeed

theorem Deed.lastName?_roots_eq_none {deeds : List Deed} {id : ObjectId}
    (h : ∀ deed ∈ deeds, deed.id ≠ id) :
    NameMap.lastName? (deeds.filterMap Deed.root?) id = none := by
  refine NameMap.lastName?_eq_none ?_
  intro r hr
  obtain ⟨deed, hdeed, hroot⟩ := List.mem_filterMap.1 hr
  rw [Deed.id_of_root? hroot]
  exact h deed hdeed

theorem Deed.firstName?_segments_eq_none {deeds : List Deed} {id : ObjectId}
    (h : ∀ deed ∈ deeds, deed.id ≠ id) :
    NameMap.firstName? (deeds.flatMap Deed.segments) id = none := by
  refine NameMap.firstName?_eq_none ?_
  intro r hr
  obtain ⟨deed, hdeed, hsegment⟩ := List.mem_flatMap.1 hr
  rw [Deed.id_of_segments hsegment]
  exact h deed hdeed

/-- The merged listings of one deed give its name to its object. -/
theorem Deed.find?_merge_singleton (naming : Naming) {deed : Deed} (hnamed : deed.NamedByFirst) :
    (NameMap.lastName? ([deed].filterMap Deed.root?) deed.id).or
        ((NameMap.firstName? ([deed].flatMap Deed.segments) deed.id).map naming.image) =
      NameMap.find? ([deed].filterMap (Deed.listed? naming)) deed.id := by
  cases deed with
  | source request content =>
    show (NameMap.lastName? [⟨content.objectId, content.name⟩] content.objectId).or _ =
      NameMap.find? [(content.objectId, content.name)] content.objectId
    rw [NameMap.lastName?_singleton, NameMap.find?_cons, if_pos rfl, if_pos rfl]
    rfl
  | file request id => rfl
  | image request content =>
    obtain ⟨rest, hpaths⟩ : ∃ rest, request.paths = content.name :: rest :=
      List.head?_eq_some_iff.1 hnamed
    have hrows : [Deed.image request content].flatMap Deed.segments =
        [⟨content.objectId, content.name⟩] ++
          rest.map fun path => (⟨content.objectId, path⟩ : SourceRow) := by
      simp [Deed.segments, hpaths]
    show (none : Option String).or
        ((NameMap.firstName? ([Deed.image request content].flatMap Deed.segments)
          content.objectId).map naming.image) =
      NameMap.find? [(content.objectId, naming.image content.name)] content.objectId
    rw [hrows, NameMap.firstName?_append, NameMap.firstName?_singleton, NameMap.find?_cons,
      if_pos rfl, if_pos rfl]
    rfl

/-- **The merged listings give to every id the name in its entry.** -/
theorem Deed.find?_merge (naming : Naming) (id : ObjectId) {deeds : List Deed}
    (hids : deeds.Pairwise fun a b => a.id < b.id) (hnamed : ∀ deed ∈ deeds, deed.NamedByFirst) :
    NameMap.find?
        (NameMap.merge naming (deeds.filterMap Deed.root?) (deeds.flatMap Deed.segments)) id =
      NameMap.find? (deeds.filterMap (Deed.listed? naming)) id := by
  rw [NameMap.find?_merge]
  induction deeds with
  | nil => rfl
  | cons deed deeds ih =>
    obtain ⟨hhead, htail⟩ := List.pairwise_cons.1 hids
    have hrest := ih htail fun d hd => hnamed d (List.mem_cons_of_mem _ hd)
    have hfirst : deed.NamedByFirst := hnamed deed (List.mem_cons.2 (Or.inl rfl))
    rw [← List.singleton_append, List.filterMap_append, List.filterMap_append, List.flatMap_append,
      NameMap.lastName?_append, NameMap.firstName?_append, NameMap.find?_append]
    by_cases hid : id = deed.id
    · -- the ids go up, so no later deed has recorded this object
      subst hid
      have hlater : ∀ d ∈ deeds, d.id ≠ deed.id := fun d hd => (Int.ne_of_lt (hhead d hd)).symm
      rw [Deed.lastName?_roots_eq_none hlater, Deed.firstName?_segments_eq_none hlater,
        Deed.find?_listed_eq_none hlater, Option.none_or, Option.or_none, Option.or_none]
      exact Deed.find?_merge_singleton naming hfirst
    · have hother : ∀ d ∈ [deed], d.id ≠ id := by
        intro d hd
        rw [List.mem_singleton.1 hd]
        exact Ne.symm hid
      rw [Deed.lastName?_roots_eq_none hother, Deed.firstName?_segments_eq_none hother,
        Deed.find?_listed_eq_none hother, Option.none_or, Option.none_or, Option.or_none]
      exact hrest

/-- What is shown of deeds whose ids go up goes up, if it is under these ids. -/
theorem Deed.pairwise_shown {α : Type} {shown : Deed → Option α} {key : α → ObjectId} {deeds : List Deed}
    (hids : deeds.Pairwise fun a b => a.id < b.id) (hkey : ∀ {deed a}, shown deed = some a → key a = deed.id) :
    (deeds.filterMap shown).Pairwise fun a b => key a < key b := by
  refine hids.filterMap _ ?_
  intro a a' hlt b hb b' hb'
  rw [hkey hb, hkey hb']
  exact hlt

/-- Deeds whose ids go up have entries whose ids go up. -/
theorem Deed.ascending_listed (naming : Naming) {deeds : List Deed}
    (hids : deeds.Pairwise fun a b => a.id < b.id) :
    NameMap.Ascending (deeds.filterMap (Deed.listed? naming)) :=
  Deed.pairwise_shown hids Deed.id_of_listed?

/-- **The merged listings of some deeds are their entries.** -/
theorem Deed.merge_eq (naming : Naming) {deeds : List Deed}
    (hids : deeds.Pairwise fun a b => a.id < b.id) (hnamed : ∀ deed ∈ deeds, deed.NamedByFirst) :
    NameMap.merge naming (deeds.filterMap Deed.root?) (deeds.flatMap Deed.segments) =
      deeds.filterMap (Deed.listed? naming) :=
  NameMap.Ascending.ext (NameMap.ascending_merge naming _ _) (Deed.ascending_listed naming hids)
    fun id => Deed.find?_merge naming id hids hnamed

namespace Shows

variable {db : Db} {deeds : List Deed}

/-- The logical sources that a database answers with. -/
theorem logicalSources (h : Shows db.committed deeds) (hc : db.committed.Complete)
    (hopen : db.closed = false) :
    Relational.store.logicalSources db = (.ok (deeds.filterMap Deed.root?), db) := by
  rw [Relational.logicalSources_eq hopen, Tables.logicalSources_eq hc, h.roots, Tables.readNames_stored]
  rfl

/-- The images that a database answers with. -/
theorem imageSources (h : Shows db.committed deeds) (hc : db.committed.Complete)
    (hopen : db.closed = false) :
    Relational.store.imageSources db = (.ok (deeds.flatMap Deed.segments), db) := by
  rw [Relational.imageSources_eq hopen, Tables.imageSources_eq hc h.inOrder, h.segments,
    Tables.readNames_stored]
  rfl

/-- **The names that are loaded are the entries of what the listings show.** -/
theorem load (h : Shows db.committed deeds) (hc : db.committed.Complete) (hopen : db.closed = false)
    (naming : Naming) :
    NameMap.load naming Relational.store db = (.ok (deeds.filterMap (Deed.listed? naming)), db) := by
  rw [← Deed.merge_eq naming h.ids h.named]
  exact NameMap.load_of_listed (h.logicalSources hc hopen) (h.imageSources hc hopen)

end Shows

/-- What the listings of a case show. -/
theorem history_shows (now : Int) (events : List Event) :
    Shows (history now events).db.committed (historyLedger now events).deeds :=
  Shows.serial _ (Shows.fresh now) (Tables.fresh_wellFormed now) (historyLedger_fits now events).settled

/-- **The names that are loaded after a history are the entries of what has been committed.** -/
theorem history_load (now : Int) (events : List Event) (naming : Naming) :
    NameMap.load naming Relational.store (history now events).db =
      (.ok ((historyLedger now events).names naming), (history now events).db) :=
  (history_shows now events).load (history_inv now events).committed.complete
    (history_inv now events).isOpen naming

/-- Every naming gives names to the same ids. -/
theorem Ledger.names_keys (naming : Naming) (l : Ledger) :
    (l.names naming).map (·.1) = (l.names .full).map (·.1) := by
  unfold Ledger.names
  rw [List.map_filterMap, List.map_filterMap]
  refine List.filterMap_congr ?_
  intro deed _
  cases deed <;> rfl

theorem Ledger.mem_names_iff {naming : Naming} {l : Ledger} {id : ObjectId} {name : String} :
    (id, name) ∈ l.names naming ↔
      (∃ request content, .source request content ∈ l.deeds ∧
        content.objectId = id ∧ content.name = name) ∨
      ∃ request content, .image request content ∈ l.deeds ∧
        content.objectId = id ∧ naming.image content.name = name := by
  unfold Ledger.names
  rw [List.mem_filterMap]
  constructor
  · rintro ⟨deed, hdeed, hlisted⟩
    cases deed with
    | source request content =>
      cases hlisted
      exact Or.inl ⟨request, content, hdeed, rfl, rfl⟩
    | file request id => cases hlisted
    | image request content =>
      cases hlisted
      exact Or.inr ⟨request, content, hdeed, rfl, rfl⟩
  · rintro (⟨request, content, hdeed, rfl, rfl⟩ | ⟨request, content, hdeed, rfl, rfl⟩)
    · exact ⟨_, hdeed, rfl⟩
    · exact ⟨_, hdeed, rfl⟩

/-- No two deeds have recorded the same object. -/
theorem Shows.eq_of_id {t : Tables} {deeds : List Deed} (h : Shows t deeds) {a b : Deed}
    (ha : a ∈ deeds) (hb : b ∈ deeds) (hid : a.id = b.id) : a = b := by
  let Same : Deed → Deed → Prop := fun a b => a.id = b.id → a = b
  have hsymm : Std.Symm Same := ⟨fun _ _ heq hid => (heq hid.symm).symm⟩
  have hsame : deeds.Pairwise Same := h.ids.imp fun hlt heq => absurd heq (Int.ne_of_lt hlt)
  exact List.Pairwise.forall_of_forall (fun _ _ _ => rfl) hsame ha hb hid

/-- **The names that are loaded are those of the sources and images that have been committed**: after any
history each source goes by the name it was answered with and each image by its first segment, or
the short form of that; a file or directory has no entry, and an entry stays whatever happens
afterwards. -/
theorem history_names (now : Int) (events : List Event) (naming : Naming) :
    let db := (history now events).db
    let ledger := historyLedger now events
    let names := ledger.names naming
    NameMap.load naming Relational.store db = (.ok names, db) ∧
      names.Ascending ∧
      names.map (·.1) = (ledger.names .full).map (·.1) ∧
      (∀ id name, names.find? id = some name ↔
        (∃ request content, .source request content ∈ ledger.deeds ∧
          content.objectId = id ∧ content.name = name) ∨
        ∃ request content, .image request content ∈ ledger.deeds ∧
          content.objectId = id ∧ naming.image content.name = name) ∧
      (∀ request content, .image request content ∈ ledger.deeds →
        request.paths.head? = some content.name) ∧
      (∀ request id, .file request id ∈ ledger.deeds → names.find? id = none) ∧
      ∀ more, names <+: (historyLedger now (events ++ more)).names naming := by
  intro db ledger names
  have hshows : Shows db.committed ledger.deeds := history_shows now events
  have hascending : names.Ascending := Deed.ascending_listed naming hshows.ids
  refine ⟨history_load now events naming, hascending, ledger.names_keys naming, ?_, ?_, ?_, ?_⟩
  · intro id name
    rw [hascending.find?_eq_some_iff, Ledger.mem_names_iff]
  · intro request content hmem
    exact hshows.named _ hmem
  · intro request id hmem
    cases hfind : names.find? id with
    | none => rfl
    | some name =>
      -- another deed would have recorded the object of the file
      obtain ⟨deed, hdeed, hlisted⟩ := List.mem_filterMap.1 (hascending.find?_eq_some_iff.1 hfind)
      have heq : deed = .file request id :=
        hshows.eq_of_id hdeed hmem (Deed.id_of_listed? hlisted).symm
      rw [heq] at hlisted
      cases hlisted
  · intro more
    exact (historyLedger_deeds_extend now events more).filterMap _

/-- The image goes by its first segment, and the source that is still open is not shown. -/
example : (NameMap.load .short Relational.store (history 0 eventful).db).1 =
    .ok [(1, "d.001"), (2, "Case 1")] := by cbv

end Casefile
