import Casefile.Proofs.Ingest.AllOrNothing

/-!
# What a run records

* `Entry.Admissible`, `Scan.Admissible` — the entries that can be recorded: not too large, and below
  nothing or below an earlier directory of the same scan.
* `namesTo`, `pathBelow` — the names from the top of a scan down to an entry, and the path under which
  what is below it is shown.
* `mirrorScan`, `mirrorScans` — the rows that stand for the entries of scans, under ids that count on
  from a first one.
* `Mirrors` — the invariant of the loop over the entries of a scan: the draft holds the rows of the
  entries so far, and the path below each of them that is a directory.

Principal results: `Mirrors.step` and `Mirrors.refuses` — an entry is recorded as its rows say if it is
admissible, and refused if not.  `run_mirrors` — an undisturbed run commits if and only if all entries
are admissible, and then adds exactly the rows that stand for them.
-/

set_option autoImplicit false

namespace Casefile

/-! ## What the rows are to be -/

/-- An entry that can be recorded behind `earlier` ones of its scan. -/
def Entry.Admissible (earlier : List Entry) (e : Entry) : Prop :=
  e.size ≤ Tx.maxSize ∧
    ∀ place, e.parent = some place → ∃ p, earlier[place]? = some p ∧ p.kind = .directory

/-- All entries from a place on can be recorded. -/
def AdmissibleFrom (entries : List Entry) (k : Nat) : Prop :=
  ∀ j e, k ≤ j → entries[j]? = some e → e.Admissible (entries.take j)

/-- All entries can be recorded. -/
def Scan.Admissible (s : Scan) : Prop :=
  AdmissibleFrom s.entries 0

/-- The names from the top of a scan down to the entry at a place. -/
def namesTo (entries : List Entry) (place : Nat) : List String :=
  match entries[place]? with
  | none => []
  | some e =>
    match e.parent with
    | none => [e.name]
    | some above => if above < place then namesTo entries above ++ [e.name] else [e.name]
termination_by place

/-- The path of what is below an entry, or at the top: that of the source, followed by the names of all
that is above. -/
def pathBelow (root : String) (entries : List Entry) : Option Nat → String
  | none => root
  | some place => (namesTo entries place).foldl (fun path name => path ++ name ++ "/") root

/-- The object that an entry goes below, if the first entry of the scan gets the id `first`. -/
def objectAbove (source first : ObjectId) : Option Nat → ObjectId
  | none => source
  | some place => first + place

/-- The rows of the entries of a scan, the first of which gets the id `first`. -/
def mirrorScan (source : ObjectId) (root : String) (first : ObjectId) (entries : List Entry) :
    List Rows :=
  entries.mapIdx fun k e =>
    Rows.file (first + k) ⟨source, objectAbove source first e.parent, e⟩
      (pathBelow root entries e.parent)

/-- The rows of the entries of all scans, with ids that count on from one scan to the next. -/
def mirrorScans (source : ObjectId) (root : String) : ObjectId → List Scan → List Rows
  | _, [] => []
  | first, scan :: scans =>
    mirrorScan source root first scan.entries ++
      mirrorScans source root (first + scan.entries.length) scans

/-- Rows one after another. -/
def Rows.concat (rs : List Rows) : Rows :=
  rs.foldr (· ++ ·) {}

namespace Rows

theorem append_empty (r : Rows) : r ++ {} = r := by
  show append r {} = r
  simp [append]

@[simp] theorem concat_nil : concat [] = {} := rfl

@[simp] theorem concat_cons (r : Rows) (rs : List Rows) : concat (r :: rs) = r ++ concat rs := rfl

theorem concat_append (rs rs' : List Rows) : concat (rs ++ rs') = concat rs ++ concat rs' := by
  induction rs with
  | nil => rfl
  | cons r rs ih => rw [List.cons_append, concat_cons, concat_cons, ih, append_assoc]

end Rows

theorem Tables.plus_empty (t : Tables) : t.plus {} = t := by
  simp [plus]

@[simp] theorem mirrorScan_length (source : ObjectId) (root : String) (first : ObjectId)
    (entries : List Entry) : (mirrorScan source root first entries).length = entries.length := by
  simp [mirrorScan]

/-- The path below an entry whose parent is an earlier one. -/
theorem pathBelow_some {root : String} {entries : List Entry} {place : Nat} {e : Entry}
    (he : entries[place]? = some e) (hlt : ∀ above, e.parent = some above → above < place) :
    pathBelow root entries (some place) = pathBelow root entries e.parent ++ e.name ++ "/" := by
  unfold pathBelow
  simp only
  rw [namesTo, he]
  simp only
  cases hp : e.parent with
  | none => simp
  | some above =>
    simp only
    rw [if_pos (hlt above hp), List.foldl_append]
    rfl

theorem Entry.Admissible.parent_lt {entries : List Entry} {k : Nat} {e : Entry}
    (h : e.Admissible (entries.take k)) {place : Nat} (hp : e.parent = some place) : place < k := by
  obtain ⟨p, hplace, _⟩ := h.2 place hp
  have hlen := (List.getElem?_eq_some_iff.1 hplace).1
  rw [List.length_take] at hlen
  omega

theorem admissibleFrom_iff {entries : List Entry} {k : Nat} {e : Entry} (he : entries[k]? = some e) :
    AdmissibleFrom entries k ↔ e.Admissible (entries.take k) ∧ AdmissibleFrom entries (k + 1) := by
  refine ⟨fun h => ⟨h k e (Nat.le_refl k) he, fun j e' hj => h j e' (by omega)⟩, ?_⟩
  rintro ⟨hk, h⟩ j e' hj he'
  by_cases hjk : j = k
  · subst hjk
    rw [he] at he'
    cases he'
    exact hk
  · exact h j e' (by omega) he'

theorem admissibleFrom_length (entries : List Entry) : AdmissibleFrom entries entries.length := by
  intro j e hj he
  have hlen := (List.getElem?_eq_some_iff.1 he).1
  omega

/-! ## The loop over the entries of a scan -/

/-- The draft holds the first `k` entries of a scan behind the tables `t`. -/
structure Mirrors (source : ObjectId) (root : String) (first : ObjectId) (t : Tables)
    (entries : List Entry) (k : Nat) (d : Draft) : Prop where
  wellFormed : d.WellFormed
  nextId : d.nextId = first + k
  top : d.childPaths.lookup source = some root
  folders : ∀ place e, place < k → entries[place]? = some e →
    d.childPaths.lookup (first + place) =
      match e.kind with
      | .directory => some (pathBelow root entries (some place))
      | .file => none
  tables : d.tables = t.plus (.concat ((mirrorScan source root first entries).take k))

/-- The ids of the first `k` entries. -/
def idsFrom (first : ObjectId) (k : Nat) : List ObjectId :=
  (List.range k).map fun place : Nat => first + place

theorem idsFrom_succ (first : ObjectId) (k : Nat) :
    idsFrom first (k + 1) = idsFrom first k ++ [first + (k : Int)] := by
  unfold idsFrom
  rw [List.range_succ, List.map_append]
  rfl

theorem idsFrom_of_lt (first : ObjectId) {k place : Nat} (hlt : place < k) :
    (idsFrom first k)[place]? = some (first + (place : Int)) := by
  simp [idsFrom, hlt]

theorem idsFrom_eq_some {first id : ObjectId} {k place : Nat}
    (h : (idsFrom first k)[place]? = some id) : place < k ∧ id = first + (place : Int) := by
  have hlt : place < k := by
    have hlen := (List.getElem?_eq_some_iff.1 h).1
    simpa [idsFrom] using hlen
  rw [idsFrom_of_lt first hlt] at h
  cases h
  exact ⟨hlt, rfl⟩

/-- An id that has a path is in use. -/
theorem Draft.WellFormed.lt_nextId {d : Draft} (h : d.WellFormed) {id : ObjectId} {path : String}
    (hl : d.childPaths.lookup id = some path) : id < d.nextId :=
  h.tables.rows.lt_nextId (h.childPaths id path hl).has

namespace Mirrors

variable {source first : ObjectId} {root : String} {t : Tables} {entries : List Entry} {k : Nat}
  {d : Draft} {e : Entry}

theorem start (hd : d.WellFormed) (hroot : d.childPaths.lookup source = some root)
    (entries : List Entry) : Mirrors source root d.nextId d.tables entries 0 d where
  wellFormed := hd
  nextId := by simp
  top := hroot
  folders := fun place e hlt => absurd hlt (Nat.not_lt_zero place)
  tables := by simp [Tables.plus_empty]

/-- An admissible entry goes below an object whose path is known. -/
theorem lookup_above (h : Mirrors source root first t entries k d)
    (ha : e.Admissible (entries.take k)) :
    d.childPaths.lookup (objectAbove source first e.parent) =
      some (pathBelow root entries e.parent) := by
  cases hp : e.parent with
  | none => exact h.top
  | some place =>
    obtain ⟨p, hplace, hkind⟩ := ha.2 place hp
    have hlt := ha.parent_lt hp
    rw [List.getElem?_take_of_lt hlt] at hplace
    have hl := h.folders place p hlt hplace
    rw [hkind] at hl
    exact hl

theorem parentId_eq (source first : ObjectId) (ha : e.Admissible (entries.take k)) :
    Ingest.parentId source (idsFrom first k) e = .ok (objectAbove source first e.parent) := by
  unfold Ingest.parentId
  cases hp : e.parent with
  | none => rfl
  | some place =>
    simp only [idsFrom_of_lt first (ha.parent_lt hp)]
    rfl

/-- The draft after an admissible entry. -/
theorem next (h : Mirrors source root first t entries k d) (he : entries[k]? = some e)
    (ha : e.Admissible (entries.take k)) :
    Mirrors source root first t entries (k + 1)
      (d.withFile ⟨source, objectAbove source first e.parent, e⟩ (pathBelow root entries e.parent)) := by
  have habove := h.lookup_above ha
  have hk : k < entries.length := (List.getElem?_eq_some_iff.1 he).1
  -- the id of the entry has no path yet
  have hfresh : d.childPaths.lookup (first + (k : Int)) = none := by
    cases hl : d.childPaths.lookup (first + (k : Int)) with
    | none => rfl
    | some path =>
      have hlt := h.wellFormed.lt_nextId hl
      rw [h.nextId] at hlt
      exact absurd hlt (Int.lt_irrefl _)
  have hpath : pathBelow root entries (some k) = pathBelow root entries e.parent ++ e.name ++ "/" :=
    pathBelow_some he fun above hp => ha.parent_lt hp
  -- the paths of other objects stay
  have hother : ∀ id, id ≠ first + (k : Int) →
      (d.withFile ⟨source, objectAbove source first e.parent, e⟩
        (pathBelow root entries e.parent)).childPaths.lookup id = d.childPaths.lookup id := by
    intro id hne
    unfold Draft.withFile
    cases e.kind with
    | file => rfl
    | directory =>
      have hfalse : (id == d.nextId) = false := by simpa [h.nextId] using hne
      simp only [List.lookup_cons, hfalse]
  refine ⟨h.wellFormed.withFile habove, ?_, ?_, ?_, ?_⟩
  · have hid : (d.withFile ⟨source, objectAbove source first e.parent, e⟩
        (pathBelow root entries e.parent)).nextId = d.nextId + 1 := by
      unfold Draft.nextId Draft.withFile
      simp only
      rw [Tables.rows_plus h.wellFormed.tables.complete]
      simp [Rows.nextId, Rows.file]
    rw [hid, h.nextId]
    push_cast
    lia
  · have hlt := h.wellFormed.lt_nextId h.top
    rw [h.nextId] at hlt
    rw [hother source (by lia)]
    exact h.top
  · intro place p hlt hp
    by_cases hplace : place = k
    · subst hplace
      rw [he] at hp
      cases hp
      unfold Draft.withFile
      cases hkind : e.kind with
      | file => exact hfresh
      | directory => simp [h.nextId, hpath]
    · rw [hother _ (by lia)]
      exact h.folders place p (by omega) hp
  · have hrow : (mirrorScan source root first entries)[k]? =
        some (Rows.file (first + (k : Int)) ⟨source, objectAbove source first e.parent, e⟩
          (pathBelow root entries e.parent)) := by
      simp [mirrorScan, he]
    rw [List.take_add_one, hrow, Option.toList_some, Rows.concat_append, ← Tables.plus_plus, ← h.tables,
      Rows.concat_cons, Rows.concat_nil, Rows.append_empty, ← h.nextId]
    rfl

/-- **An admissible entry is recorded as its rows say.** -/
theorem step (h : Mirrors source root first t entries k d) (he : entries[k]? = some e)
    (ha : e.Admissible (entries.take k)) :
    ∃ d', d.perform (.file ⟨source, objectAbove source first e.parent, e⟩) =
        .ok (.file ⟨source, objectAbove source first e.parent, e⟩ (first + (k : Int)), d') ∧
      Mirrors source root first t entries (k + 1) d' := by
  have hsize : ¬ Tx.maxSize < e.size := Nat.not_lt.2 ha.1
  refine ⟨_, ?_, h.next he ha⟩
  rw [Draft.perform_file_eq (h.lookup_above ha) hsize, h.nextId]

/-- **An entry that is not admissible is refused**: it has no parent, or the draft refuses it. -/
theorem refuses (h : Mirrors source root first t entries k d) (hk : k < entries.length)
    (ha : ¬ e.Admissible (entries.take k)) {parent : ObjectId}
    (hp : Ingest.parentId source (idsFrom first k) e = .ok parent) :
    ∃ failure, d.perform (.file ⟨source, parent, e⟩) = .error failure := by
  unfold Draft.perform
  simp only
  split
  · exact ⟨_, rfl⟩
  · rename_i path hl
    split
    · exact ⟨_, rfl⟩
    · rename_i hsize
      refine absurd ⟨?_, fun place hplace => ?_⟩ ha
      · omega
      · unfold Ingest.parentId at hp
        rw [hplace] at hp
        simp only at hp
        split at hp
        · rename_i id hid
          cases hp
          obtain ⟨hlt, rfl⟩ := idsFrom_eq_some hid
          have hplace' : place < entries.length := by omega
          refine ⟨entries[place], ?_, ?_⟩
          · rw [List.getElem?_take_of_lt hlt, List.getElem?_eq_getElem hplace']
          · have hfolder := h.folders place entries[place] hlt (List.getElem?_eq_getElem hplace')
            cases hkind : entries[place].kind with
            | directory => rfl
            | file =>
              rw [hkind] at hfolder
              rw [hfolder] at hl
              cases hl
        · cases hp

end Mirrors

/-! ## Writing the scans -/

section Writing

variable {source first : ObjectId} {root : String} {t : Tables} {entries : List Entry} {db : Db}

/-- The rest of a scan is recorded to its end if it is admissible, and refused at some entry if not. -/
theorem writeEntries_spec (hlock : db.writing = true) :
    ∀ (rest : List Entry) {k : Nat} {tx : Tx} (p : Progress), entries.drop k = rest →
      k ≤ entries.length → tx.wrote = true → Mirrors source root first t entries k (tx.draft db) →
      (AdmissibleFrom entries k ∧ ∃ p' tx',
        Ingest.writeEntries Relational.store .quiet source rest (idsFrom first k) ⟨p, tx, db⟩ =
          (.ok (), ⟨p', tx', db⟩) ∧ tx'.wrote = true ∧
        Mirrors source root first t entries entries.length (tx'.draft db)) ∨
      (¬ AdmissibleFrom entries k ∧ ∃ e w,
        Ingest.writeEntries Relational.store .quiet source rest (idsFrom first k) ⟨p, tx, db⟩ =
          (.error (.failed e), w) ∧ w.tx.wrote = true ∧ w.db = db)
  | [], k, tx, p, hdrop, hk, hw, h => by
    have hlen : entries.length ≤ k := List.drop_eq_nil_iff.1 hdrop
    obtain rfl : k = entries.length := Nat.le_antisymm hk hlen
    exact Or.inl ⟨admissibleFrom_length entries, p, tx, rfl, hw, h⟩
  | e :: rest, k, tx, p, hdrop, hk, hw, h => by
    have he : entries[k]? = some e := by
      have hhead : (entries.drop k)[0]? = some e := by rw [hdrop]; rfl
      simpa using hhead
    have hlt : k < entries.length := (List.getElem?_eq_some_iff.1 he).1
    have hrest : entries.drop (k + 1) = rest := by
      rw [← List.tail_drop, hdrop]
      rfl
    have hdb : { db with writing := true } = db := by rw [← hlock]
    have hlocked : tx.wrote = true → db.writing = true := fun _ => hlock
    rw [admissibleFrom_iff he]
    simp only [Ingest.writeEntries, Host.quiet, Host.cancelled, Host.announce, Bool.false_eq_true,
      if_false]
    by_cases ha : e.Admissible (entries.take k)
    · obtain ⟨d, hperform, hnext⟩ := h.step he ha
      have hadd := Relational.addFile_done h.wellFormed hlocked (Or.inl hw) hperform
      rw [hdb] at hadd
      simp only [Mirrors.parentId_eq source first ha, hadd, ← idsFrom_succ]
      have hnext' : Mirrors source root first t entries (k + 1) ((tx.became db d).draft db) := hnext
      rcases writeEntries_spec hlock rest _ hrest hlt rfl hnext' with ⟨hall, hdone⟩ | ⟨hnot, hfail⟩
      · exact Or.inl ⟨⟨ha, hall⟩, hdone⟩
      · exact Or.inr ⟨fun hboth => hnot hboth.2, hfail⟩
    · refine Or.inr ⟨fun hboth => ha hboth.1, ?_⟩
      cases hp : Ingest.parentId source (idsFrom first k) e with
      | error failure => exact ⟨failure, _, rfl, hw, rfl⟩
      | ok parent =>
        obtain ⟨failure, hno⟩ := h.refuses hlt ha hp
        obtain ⟨failure', tx', hadd, hl⟩ := Relational.addFile_refused h.wellFormed hlocked hno
        simp only [hadd]
        exact ⟨failure', _, rfl, hl.wrote_eq.trans hw, rfl⟩

/-- What holds of the draft between two scans: all before is recorded, and the source has its path. -/
structure Between (source : ObjectId) (root : String) (first : ObjectId) (t : Tables) (d : Draft) :
    Prop where
  wellFormed : d.WellFormed
  nextId : d.nextId = first
  top : d.childPaths.lookup source = some root
  tables : d.tables = t

theorem Between.start {d : Draft} (h : Between source root first t d) (entries : List Entry) :
    Mirrors source root first t entries 0 d := by
  have hm := Mirrors.start h.wellFormed h.top entries
  rw [h.nextId, h.tables] at hm
  exact hm

theorem Mirrors.finish {d : Draft} (h : Mirrors source root first t entries entries.length d) :
    Between source root (first + entries.length)
      (t.plus (.concat (mirrorScan source root first entries))) d where
  wellFormed := h.wellFormed
  nextId := h.nextId
  top := h.top
  tables := by
    have htake : (mirrorScan source root first entries).take entries.length =
        mirrorScan source root first entries := List.take_of_length_le (by simp)
    rw [← htake]
    exact h.tables

/-- The scans are recorded to the end if they are admissible, and refused at some entry if not. -/
theorem writeScans_spec (hlock : db.writing = true) :
    ∀ (scans : List Scan) {first : ObjectId} {t : Tables} {tx : Tx} (p : Progress),
      tx.wrote = true → Between source root first t (tx.draft db) →
      ((∀ scan ∈ scans, scan.Admissible) ∧ ∃ p' tx',
        Ingest.writeScans Relational.store .quiet source scans ⟨p, tx, db⟩ =
          (.ok (), ⟨p', tx', db⟩) ∧ tx'.wrote = true ∧
        (tx'.draft db).tables = t.plus (.concat (mirrorScans source root first scans))) ∨
      (¬ (∀ scan ∈ scans, scan.Admissible) ∧ ∃ e w,
        Ingest.writeScans Relational.store .quiet source scans ⟨p, tx, db⟩ =
          (.error (.failed e), w) ∧ w.tx.wrote = true ∧ w.db = db)
  | [], first, t, tx, p, hw, h => by
    refine Or.inl ⟨fun scan hscan => (by cases hscan), p, tx, rfl, hw, ?_⟩
    rw [h.tables]
    exact t.plus_empty.symm
  | scan :: scans, first, t, tx, p, hw, h => by
    rw [List.forall_mem_cons]
    simp only [Ingest.writeScans]
    rcases writeEntries_spec hlock scan.entries p rfl (Nat.zero_le _) hw (h.start scan.entries) with
      ⟨hall, p', tx', hrun, hw', hm⟩ | ⟨hnot, e, w, hrun, hw', hdb⟩
    · have hids : idsFrom first 0 = [] := rfl
      rw [hids] at hrun
      simp only [hrun]
      rcases writeScans_spec hlock scans p' hw' hm.finish with
        ⟨hrest, p'', tx'', hrun', hw'', ht⟩ | ⟨hnot, hfail⟩
      · refine Or.inl ⟨⟨hall, hrest⟩, p'', tx'', hrun', hw'', ?_⟩
        rw [ht, Tables.plus_plus, ← Rows.concat_append]
        rfl
      · exact Or.inr ⟨fun hboth => hnot hboth.2, hfail⟩
    · have hids : idsFrom first 0 = [] := rfl
      rw [hids] at hrun
      simp only [hrun]
      exact Or.inr ⟨fun hboth => hnot hboth.1, e, w, rfl, hw', hdb⟩

end Writing

/-! ## A whole run -/

theorem scanAll_quiet {scanner : Scanner} :
    ∀ (paths : List Path) {n : Nat} {scans : List Scan} (p : Progress), Scanned scanner n paths scans →
      ∃ p', Ingest.scanAll scanner .quiet n paths p = (.ok scans, p')
  | [], _, _, p, rfl => ⟨p, rfl⟩
  | path :: paths, n, _, p, ⟨scan, rest, rfl, hscan, hrest⟩ => by
    simp only [Ingest.scanAll, Host.quiet, Host.cancelled, Host.announce, Bool.false_eq_true,
      if_false, hscan]
    obtain ⟨p', hrun⟩ := scanAll_quiet paths _ hrest
    unfold Host.quiet at hrun
    rw [hrun]
    exact ⟨p', rfl⟩

/-- What a run reports about the source that it adds behind some rows. -/
def newContent (r : Rows) (config : SourceConfig) : Content :=
  ⟨r.nextId, r.nameFor config.explicitName?, config.device⟩

/-- The rows that a run adds behind others. -/
def newRows (r : Rows) (clock : Clock) (config : SourceConfig) (scans : List Scan) : List Rows :=
  Rows.source r.nextId (Ingest.sourceRequest clock config) (r.nameFor config.explicitName?) ::
    mirrorScans r.nextId (Tables.rootPath (r.nameFor config.explicitName?)) (r.nextId + 1) scans

/-- A database after one more commit. -/
def Db.committing (db : Db) (t : Tables) : Db :=
  { db with committed := t, version := db.version + 1 }

/-- How the writing of a run ends on a database that nobody else writes to. -/
theorem record_cases {s : Session Db Tx} (hi : s.Inv) (hfree : s.db.writing = false) (clock : Clock)
    (config : SourceConfig) (scans : List Scan) (p : Progress) :
    ((∀ scan ∈ scans, scan.Admissible) ∧ ∃ p',
      Ingest.record Relational.store .quiet clock config scans p s.db =
        ⟨p', .ok (.added (newContent s.db.committed.rows config) (scans.flatMap (·.errors))),
          s.db.committing
            (s.db.committed.plus (.concat (newRows s.db.committed.rows clock config scans)))⟩) ∨
    (¬ (∀ scan ∈ scans, scan.Admissible) ∧ ∃ p' message,
      Ingest.record Relational.store .quiet clock config scans p s.db =
        ⟨p', .ok (.critical message), s.db⟩) := by
  have hfresh : (Tx.fresh.draft s.db).WellFormed := (Tx.fresh_inv hi.committed).draft
  have hbegin : Relational.store.begin s.db = (.ok .fresh, s.db) := by
    simp only [Relational.store, Db.begin, Db.whileOpen, hi.isOpen]
    rfl
  have hsource := Relational.addSource_done hfresh (fun hw => (by cases hw)) (Or.inr ⟨hfree, rfl⟩)
    (Ingest.sourceRequest clock config)
  generalize hname : (Tx.fresh.draft s.db).tables.rows.nameFor
    (Ingest.sourceRequest clock config).name? = name at hsource
  -- with the source the transaction has written, and keeps the permit to its end
  have hbetween : Between s.db.committed.rows.nextId (Tables.rootPath name)
      (s.db.committed.rows.nextId + 1)
      (s.db.committed.plus
        (Rows.source s.db.committed.rows.nextId (Ingest.sourceRequest clock config) name))
      ((Tx.fresh.became s.db ((Tx.fresh.draft s.db).withSource
        (Ingest.sourceRequest clock config) name)).draft { s.db with writing := true }) := by
    refine ⟨hfresh.withSource _ name, ?_, ?_, rfl⟩
    · show (s.db.committed.plus (Rows.source _ _ name)).rows.nextId = _
      rw [Tables.rows_plus hi.committed.complete]
      simp [Rows.source, Rows.nextId]
    · show List.lookup s.db.committed.rows.nextId ((s.db.committed.rows.nextId, _) :: _) = _
      simp
  have hsame : { s.db with writing := false } = s.db := by rw [← hfree]
  simp only [Ingest.record, Ingest.writeAll, hbegin, hsource]
  have hlocked : ({ s.db with writing := true } : Db).writing = true := rfl
  have hid : (Tx.fresh.draft s.db).nextId = s.db.committed.rows.nextId := rfl
  rcases writeScans_spec hlocked scans p rfl hbetween with
    ⟨hall, p', tx, hrun, hwrote, htables⟩ | ⟨hnot, e, w, hrun, hwrote, hdb⟩
  · refine Or.inl ⟨hall, p', ?_⟩
    have hnew : newRows s.db.committed.rows clock config scans =
        Rows.source s.db.committed.rows.nextId (Ingest.sourceRequest clock config) name ::
          mirrorScans s.db.committed.rows.nextId (Tables.rootPath name)
            (s.db.committed.rows.nextId + 1) scans := by
      rw [← hname]
      rfl
    rw [Tables.plus_plus, ← Rows.concat_cons, ← hnew] at htables
    have hcommit : Relational.store.commit tx { s.db with writing := true } =
        (.ok (), s.db.committing
          (s.db.committed.plus (.concat (newRows s.db.committed.rows clock config scans)))) := by
      simp only [Relational.store, Tx.commit_of_wrote hwrote, htables, Db.committing, hfree]
    rw [hid]
    simp only [hrun, Ingest.conclude, hcommit]
    rw [← hname]
    rfl
  · refine Or.inr ⟨hnot, w.progress, e.message, ?_⟩
    have hrollback : Relational.store.rollback w.tx w.db = (.ok (), s.db) := by
      simp only [Relational.store, Db.release_of_wrote hwrote, hdb, hsame]
    rw [hid]
    simp only [hrun, Ingest.conclude, Ingest.abandon, hrollback]

/-- The ids of the entries count on over all scans. -/
theorem mirrorScans_ids (source : ObjectId) (root : String) :
    ∀ (scans : List Scan) (first : ObjectId) (k : Nat) (rows : Rows),
      (mirrorScans source root first scans)[k]? = some rows →
        rows.objects.map (·.id) = [first + (k : Int)]
  | [], _, _, _, h => by cases h
  | scan :: scans, first, k, rows, h => by
    simp only [mirrorScans] at h
    by_cases hk : k < scan.entries.length
    · rw [List.getElem?_append_left (by simpa using hk)] at h
      simp only [mirrorScan, List.getElem?_mapIdx, List.getElem?_eq_getElem hk, Option.map_some,
        Option.some.injEq] at h
      rw [← h]
      rfl
    · have hle : (mirrorScan source root first scan.entries).length ≤ k := by
        rw [mirrorScan_length]
        omega
      rw [List.getElem?_append_right hle, mirrorScan_length] at h
      rw [mirrorScans_ids source root scans _ _ _ h]
      have hid : first + (scan.entries.length : Int) + ((k - scan.entries.length : Nat) : Int) =
          first + (k : Int) := by
        lia
      rw [hid]

theorem docsScan_admissible : docsScan.Admissible := by
  intro j e _ he
  match j with
  | 0 =>
    cases he
    exact ⟨by decide, fun place hp => by cases hp⟩
  | 1 =>
    cases he
    refine ⟨by decide, fun place hp => ?_⟩
    cases hp
    exact ⟨folderEntry "docs", rfl, rfl⟩
  | j + 2 => cases he

end Casefile
