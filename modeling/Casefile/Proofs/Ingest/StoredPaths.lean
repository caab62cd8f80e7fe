import Casefile.Proofs.Ingest.Tree
import Casefile.Proofs.Lossy
import Casefile.Proofs.Scan.Placed
import Casefile.Proofs.Store.Transactions
import Mathlib

/-!
# The paths that are stored

* `Path.IsText` — the bytes of a path are UTF-8.
* `Tables.storedPath?` — the text that is stored as the path of an object.
* `Tables.StoresPaths` — the text that is stored for every file among some deeds is its path, as text.

A path that is no text is stored with U+FFFD for bytes that are not UTF-8, and two such paths may be stored
as the same text.

Principal results: `StoresPaths.perform` — a request that is done stores its path and leaves the others.
`Replays.ids` — the objects of a transaction have ids one behind the other.  `run_stores_paths` — so what is
stored for the entries of a run are their paths, if these are text.  `stored_paths_collide` — and no more
than that.
-/

set_option autoImplicit false

namespace Casefile

/-! ## Paths as text -/

/-- The bytes of the path are UTF-8. -/
def Path.IsText (p : Path) : Prop :=
  ∃ s, p = .ofString s

/-- A path can be had back from what it is shown as exactly if it is text. -/
theorem Path.ofString_display_iff (p : Path) : Path.ofString p.display = p ↔ p.IsText := by
  constructor
  · intro h
    exact ⟨p.display, h.symm⟩
  · rintro ⟨s, rfl⟩
    rw [Path.display_ofString]

/-- It is text if there is no U+FFFD in what it is shown as. -/
theorem Path.ofString_display_of_clean {p : Path} (hclean : '\uFFFD' ∉ p.display.toList) :
    Path.ofString p.display = p :=
  congrArg Path.mk (Text.Utf8.bytes_of_clean hclean).symm

/-- Two paths are shown as the same text only if there is a U+FFFD in it, and one of them is not text. -/
theorem Path.of_display_eq {p q : Path} (hne : p ≠ q) (h : p.display = q.display) :
    '\uFFFD' ∈ p.display.toList ∧ ¬ (p.IsText ∧ q.IsText) := by
  have hback : ¬ (Path.ofString p.display = p ∧ Path.ofString q.display = q) := by
    rintro ⟨hp, hq⟩
    rw [← hp, h, hq] at hne
    exact hne rfl
  constructor
  · by_contra hclean
    exact hback ⟨Path.ofString_display_of_clean hclean, Path.ofString_display_of_clean (h ▸ hclean)⟩
  · rw [← p.ofString_display_iff, ← q.ofString_display_iff]
    exact hback

/-! ## The objects of a transaction -/

namespace Draft

variable {d d' : Draft} {q : Request} {deed : Deed}

/-- A request that is done adds rows, one of them for an object. -/
theorem perform_plus (hp : d.perform q = .ok (deed, d')) :
    ∃ a o, d'.tables = d.tables.plus a ∧ a.objects = [o] := by
  rcases perform_cases hp with ⟨_, _, _, rfl⟩ | ⟨_, _, _, _, rfl⟩ | ⟨_, _, _, _, _, _, rfl⟩ <;>
    exact ⟨_, _, rfl, rfl⟩

/-- The object is the next one. -/
theorem perform_id (hd : d.WellFormed) (hp : d.perform q = .ok (deed, d')) :
    deed.id = d.nextId ∧ d'.nextId = d.nextId + 1 := by
  refine ⟨?_, ?_⟩
  · rw [perform_deed hp, Request.deed_id]
  · obtain ⟨a, o, ha, hone⟩ := perform_plus hp
    unfold nextId
    rw [ha, Tables.rows_plus hd.tables.complete]
    simp [Rows.nextId, hone]

end Draft

/-- **The objects of a transaction have ids one behind the other.** -/
theorem Replays.ids :
    ∀ {deeds : List Deed} {d d' : Draft}, d.WellFormed → Replays d deeds d' →
      ∀ (k : Nat) (deed : Deed), deeds[k]? = some deed → deed.id = d.nextId + k
  | [], _, _, _, _, k, deed, hget => by cases hget
  | first :: deeds, d, d', hd, ⟨d₁, hp, hrest⟩, k, deed, hget => by
    obtain ⟨hid, hnext⟩ := Draft.perform_id hd hp
    cases k with
    | zero =>
      cases hget
      rw [hid]
      lia
    | succ k =>
      have hrec := Replays.ids (hd.perform hp) hrest k deed hget
      rw [hrec, hnext]
      lia

theorem Replays.wellFormed :
    ∀ {deeds : List Deed} {d d' : Draft}, Replays d deeds d' → d.WellFormed → d'.WellFormed
  | [], _, _, rfl, hd => hd
  | _ :: _, _, _, ⟨_, hp, hrest⟩, hd => hrest.wellFormed (hd.perform hp)

/-- Each committed transaction was run on some tables. -/
theorem Serial.replays {c : Committed} :
    ∀ {cs : List Committed} {t t' : Tables}, t.WellFormed → Serial t cs t' → c ∈ cs →
      ∃ t₁ : Tables, t₁.WellFormed ∧ ∃ d, Replays ⟨t₁, []⟩ c.deeds d
  | [], _, _, _, _, hc => by cases hc
  | c' :: cs, t, _, ht, ⟨d, hr, hs⟩, hc => by
    rcases List.mem_cons.1 hc with rfl | hc
    · exact ⟨t, ht, d, hr⟩
    · have hd : (Draft.mk t []).WellFormed := ⟨ht, fun _ _ hl => by cases hl⟩
      exact Serial.replays (hr.wellFormed hd).tables hs hc

/-! ## What is stored -/

namespace Tables

/-- The text that is stored as the path of an object, if there is one. -/
def storedPath? (t : Tables) (id : ObjectId) : Option String :=
  (t.rows.filePaths.find? (·.id = id)).bind (·.path.readText.toOption)

/-- The text that is stored for every file among some deeds is its path, as text. -/
def StoresPaths (t : Tables) (deeds : List Deed) : Prop :=
  ∀ request id, .file request id ∈ deeds → t.storedPath? id = some request.entry.path.display

variable {t : Tables}

/-- What is stored stays as it is when rows are added. -/
theorem storedPath?_plus (hc : t.Complete) {id : ObjectId} {text : String}
    (h : t.storedPath? id = some text) (a : Rows) : (t.plus a).storedPath? id = some text := by
  unfold storedPath? at h ⊢
  rw [rows_plus hc, Rows.append_filePaths, List.find?_append]
  obtain ⟨row, hfind, hrow⟩ := Option.bind_eq_some_iff.1 h
  rw [hfind]
  exact hrow

/-- What is stored for a new file. -/
theorem storedPath?_file (ht : t.WellFormed) (request : FileRequest) (parentPath : String) :
    (t.plus (.file t.rows.nextId request parentPath)).storedPath? t.rows.nextId =
      some request.entry.path.display := by
  have hnew : t.rows.filePaths.find? (·.id = t.rows.nextId) = none := by
    rw [List.find?_eq_none]
    intro row hrow
    have hlt := ht.rows.numbered.filePaths row hrow
    simp only [decide_eq_true_eq]
    lia
  unfold storedPath?
  rw [rows_plus ht.complete, Rows.append_filePaths, List.find?_append, hnew]
  simp [Rows.file, Cell.readText, Except.toOption]

/-- **A request that is done stores its path**, and leaves those that are stored. -/
theorem StoresPaths.perform {d d' : Draft} {q : Request} {deed : Deed} {deeds : List Deed}
    (hd : d.WellFormed) (hp : d.perform q = .ok (deed, d')) (h : d.tables.StoresPaths deeds) :
    d'.tables.StoresPaths (deeds ++ [deed]) := by
  obtain ⟨a, _, ha, _⟩ := Draft.perform_plus hp
  intro request id hmem
  rcases List.mem_append.1 hmem with hold | hnew
  · rw [ha]
    exact storedPath?_plus hd.tables.complete (h request id hold) a
  · rw [List.mem_singleton] at hnew
    subst hnew
    rcases Draft.perform_cases hp with ⟨_, _, hdeed, _⟩ | ⟨_, parentPath, _, hdeed, rfl⟩ |
      ⟨_, _, _, _, _, hdeed, _⟩
    · cases hdeed
    · cases hdeed
      exact storedPath?_file hd.tables request parentPath
    · cases hdeed

end Tables

/-! ## Runs over a tree -/

/-- The entry that was recorded. -/
def Deed.entry? : Deed → Option Entry
  | .file request _ => some request.entry
  | _ => none

theorem EntryDeeds.entries {source : ObjectId} :
    ∀ {entries : List Entry} {ids : List ObjectId} {deeds : List Deed}, EntryDeeds source ids entries deeds →
      deeds.map Deed.entry? = entries.map some
  | [], _, _, rfl => rfl
  | _ :: _, _, _, ⟨_, _, _, _, rfl, hrest⟩ => congrArg (List.cons _) hrest.entries

/-- What stands for the entries of all scans are files with these entries, in order. -/
theorem ScanDeeds.entries {source : ObjectId} :
    ∀ {scans : List Scan} {deeds : List Deed}, ScanDeeds source scans deeds →
      deeds.map Deed.entry? = (scans.flatMap (·.entries)).map some
  | [], _, rfl => rfl
  | scan :: scans, _, ⟨first, rest, rfl, hfirst, hrest⟩ => by
    rw [List.map_append, hfirst.entries, hrest.entries, List.flatMap_cons, List.map_append]

theorem ScanDeeds.getElem? {source : ObjectId} {scans : List Scan} {deeds : List Deed}
    (h : ScanDeeds source scans deeds) {k : Nat} {e : Entry}
    (he : (scans.flatMap (·.entries))[k]? = some e) :
    ∃ request id, deeds[k]? = some (.file request id) ∧ request.entry = e := by
  have hget : (deeds.map Deed.entry?)[k]? = some (some e) := by
    rw [h.entries, List.getElem?_map, he]
    rfl
  rw [List.getElem?_map] at hget
  obtain ⟨deed, hdeed, hentry⟩ := Option.map_eq_some_iff.1 hget
  cases deed with
  | file request id => exact ⟨request, id, hdeed, Option.some.inj hentry⟩
  | source => cases hentry
  | image => cases hentry

section

variable {walk : FileTree → Path → List Finding} {t : FileTree}

/-- What a tree that stays as it is answers to all requests are scans of it. -/
theorem FileTree.scans_of_scanned :
    ∀ {roots : List Path} {n : Nat} {scans : List Scan}, Scanned (.ofTreeWith walk t) n roots scans →
      t.ScansWith walk roots scans
  | [], _, _, rfl => rfl
  | root :: roots, n, _, ⟨scan, rest, hscans, hscan, hrest⟩ => by
    have hroot : t.scanWith walk root = .ok scan := by
      unfold Scanner.ofTreeWith at hscan
      cases h : t.scanWith walk root with
      | ok scan' =>
        rw [h] at hscan
        cases hscan
        rfl
      | error e =>
        rw [h] at hscan
        cases hscan
    rw [hscans]
    show t.scanWith walk root :: roots.map (t.scanWith walk) = _
    rw [hroot, FileTree.scans_of_scanned hrest]
    rfl

/-- A tree that stays as it is gives one scan of each root. -/
theorem FileTree.ScansWith.unique {roots : List Path} {scans scans' : List Scan}
    (h : t.ScansWith walk roots scans) (h' : t.ScansWith walk roots scans') : scans = scans' := by
  have hinj : Function.Injective (List.map (Except.ok : Scan → Except Failure Scan)) :=
    List.map_injective_iff.2 fun _ _ heq => Except.ok.inj heq
  exact hinj (h.symm.trans h')

/-- No two entries of a scan are at one path. -/
theorem FileTree.scan_paths_distinct (hwalk : FileTree.Tours walk) (h : t.WellFormed) {root : Path}
    {scan : Scan} (hscan : t.scanWith walk root = .ok scan) :
    scan.entries.Pairwise fun e e' => e.path ≠ e'.path := by
  obtain ⟨node, hstat, rfl⟩ := FileTree.stat_of_scanWith hscan
  obtain ⟨locs, htour⟩ := hwalk t root node h hstat
  have hcollected := htour.collected (FileTree.admissible_of_stat hstat).1
  exact hcollected.distinct.imp fun hne heq => hne (congrArg Path.components heq)

end

/-! ## A run -/

/-- What a run has stored that took something in: for its k-th entry, under the k-th id behind that of the
source, the path of the entry as text. -/
theorem tookIn_stored {t : Tables} {me : String} {faults : List Fault} {scanner : Scanner} {clock : Clock}
    {config : SourceConfig} {report : Report} {old new : List Committed} {t' : Tables} (ht : t.WellFormed)
    (hserial : Serial t new t')
    (htook : ((Relational.amongContract me t).withFaults faults).TookIn scanner clock config report old new) :
    ∃ scans content, Scanned scanner 0 config.paths scans ∧ report.contents = [content] ∧
      ∀ (k : Nat) (e : Entry), (scans.flatMap (·.entries))[k]? = some e →
        t'.storedPath? (content.objectId + 1 + k) = some e.path.display := by
  obtain ⟨scans, content, deeds, k₁, k₂, hscanned, hdeeds, hcontents, _, _, _, hrec, hnew⟩ := htook
  refine ⟨scans, content, hscanned, hcontents, fun k e he => ?_⟩
  obtain ⟨request, id, hdeed, rfl⟩ := hdeeds.getElem? he
  obtain ⟨more, hmore, _⟩ := hnew
  let mine : Committed := ⟨me, .source (Ingest.sourceRequest clock config) content :: deeds⟩
  have hmine : mine ∈ new := by
    rw [hmore, show k₂ = k₁ ++ [mine] from hrec]
    simp
  have hnone : t.StoresPaths [] := by
    intro _ _ hmem
    cases hmem
  have hstores : t'.StoresPaths (new.flatMap (·.deeds)) :=
    Serial.preserves (P := Tables.StoresPaths) Tables.StoresPaths.perform new hnone ht hserial
  obtain ⟨t₁, ht₁, d, hreplays⟩ := Serial.replays ht hserial hmine
  have hids := hreplays.ids ⟨ht₁, fun _ _ hl => by cases hl⟩
  have hsource : content.objectId = t₁.rows.nextId + (0 : Nat) := hids 0 _ rfl
  have hfile : id = t₁.rows.nextId + (k + 1 : Nat) := hids (k + 1) (.file request id) hdeed
  have hid : content.objectId + 1 + k = id := by
    rw [hsource, hfile]
    lia
  rw [hid]
  refine hstores request id (List.mem_flatMap.2 ⟨mine, hmine, ?_⟩)
  exact List.mem_cons_of_mem _ (List.mem_of_getElem? hdeed)

/-- **The path that is stored for an entry identifies it if it is text.**  After a run of any kind that took in
what a walk came upon in a tree, whatever it could not read there, the text that is stored for each entry is the
path at which the scanner found it, with U+FFFD for bytes that are not UTF-8.  The path can be had back from it
exactly if all its bytes are UTF-8, and always from a text without U+FFFD; no two entries of one scan have the
same text stored, unless there is a U+FFFD in it and one of their paths is not UTF-8. -/
theorem run_stores_paths (now : Int) (events : List Event) (me : String) (ahead : List (List Action))
    (faults : List Fault) (walk : FileTree → Path → List Finding) (hwalk : FileTree.Tours walk) (t : FileTree)
    (h : t.WellFormed) (host : Host) (clock : Clock) (current : Reply Unit) (config : SourceConfig) :
    let outcome := Ingest.run ((Relational.among me).withFaults faults) (.ofTreeWith walk t) host clock current
      config (.start (.start (history now events).db.committed ahead))
    let tables := outcome.db.inner.session.db.committed
    outcome.report.verdict ≠ .criticalErrors →
      ∃ scans content, t.ScansWith walk config.paths scans ∧ outcome.report.contents = [content] ∧
        (∀ (k : Nat) (e : Entry), (scans.flatMap (·.entries))[k]? = some e →
          ∃ text, tables.storedPath? (content.objectId + 1 + k) = some text ∧ text = e.path.display ∧
            (Path.ofString text = e.path ↔ e.path.IsText) ∧
            ('\uFFFD' ∉ text.toList → Path.ofString text = e.path)) ∧
        ∀ scan ∈ scans, scan.entries.Pairwise fun e e' =>
          e.path.display = e'.path.display →
            '\uFFFD' ∈ e.path.display.toList ∧ ¬ (e.path.IsText ∧ e'.path.IsText) := by
  intro outcome tables hverdict
  have ht : (history now events).db.committed.WellFormed := (history_inv now events).committed
  let contract := (Relational.amongContract me (history now events).db.committed).withFaults faults
  have hstart : contract.Valid (.start (.start (history now events).db.committed ahead)) :=
    Shared.start_valid ht ahead
  obtain ⟨_, hvalid, hend⟩ := work_ends (.ofTreeWith walk t) host clock config hstart current .none rfl
  have htook : contract.TookIn (.ofTreeWith walk t) clock config outcome.report []
      outcome.db.inner.ledger.settled := hend.resolve_right fun hleft => hverdict hleft.1
  obtain ⟨scans, content, hscanned, hcontents, hstored⟩ := tookIn_stored ht hvalid.fits.settled htook
  have hscans : t.ScansWith walk config.paths scans := FileTree.scans_of_scanned hscanned
  refine ⟨scans, content, hscans, hcontents, fun k e he => ?_, fun scan hscan => ?_⟩
  · exact ⟨e.path.display, hstored k e he, rfl, e.path.ofString_display_iff,
      Path.ofString_display_of_clean⟩
  · obtain ⟨root, _, hroot⟩ := hscans.exists_root hscan
    exact (FileTree.scan_paths_distinct hwalk h hroot).imp Path.of_display_eq

/-- A run among others, one of whom commits a source before it begins. -/
theorem run_stores_paths_spelled :
    let config : SourceConfig := ⟨⟨"dev"⟩, "Case 2", [.ofString ".//in/."]⟩
    let outcome := Ingest.run ((Relational.among "run").withFaults [])
      (.ofTreeWith FileTree.walk FileTree.oddTree) .quiet (.universal 7) (.ok ()) config
      (.start (.start (history 0 eventful).db.committed
        [[.begin "other", .addSource "other" ⟨⟨"dev"⟩, none, "+00:00", 5⟩, .commit "other"]]))
    outcome.report.verdict ≠ .criticalErrors ∧
      ∃ content : Content, outcome.report.contents = [content] ∧
        outcome.db.inner.session.db.committed.storedPath? (content.objectId + 4) =
          some ".//in/./a-b" := by
  intro config outcome
  have hverdict : outcome.report.verdict ≠ .criticalErrors := by
    have hreport : outcome.report.verdict = .noErrors := by cbv
    rw [hreport]
    decide
  obtain ⟨scans, content, hscans, hcontents, hstored, _⟩ := run_stores_paths 0 eventful "run" _ []
    FileTree.walk FileTree.walk_tours FileTree.oddTree FileTree.oddTree_wellFormed .quiet (.universal 7) (.ok ())
    config hverdict
  refine ⟨hverdict, content, hcontents, ?_⟩
  have hfound : FileTree.oddTree.ScansWith FileTree.walk config.paths [Scan.ofOddments ".//in/."] := by
    unfold FileTree.ScansWith
    cbv
  obtain rfl := hscans.unique hfound
  obtain ⟨text, htext, hdisplay, _⟩ := hstored 3 ⟨.ofString ".//in/./a-b", "a-b", .file, 3, none, some 0⟩ rfl
  have hid : content.objectId + 4 = content.objectId + 1 + (3 : Nat) := by lia
  rw [hid, ← Path.display_ofString ".//in/./a-b", ← hdisplay]
  exact htext

/-- A directory with two files whose names are not UTF-8. -/
def twins : List FileTree.Object :=
  [.file ((Path.ofString "d").child [0xFE]) 0 2, .file ((Path.ofString "d").child [0xFF]) 0 3,
    .dir (.ofString "d") 1]

/-- A file system with these objects. -/
def twinTree : FileTree :=
  .grown 0 [] twins

/-- What is found in the directory of the twins. -/
def twinScan : Scan :=
  ⟨[⟨.ofString "d", "d", .directory, 0, some 1, none⟩,
      ⟨(Path.ofString "d").child [0xFE], "\uFFFD", .file, 0, some 2, some 0⟩,
      ⟨(Path.ofString "d").child [0xFF], "\uFFFD", .file, 0, some 3, some 0⟩], []⟩

/-- **Two files may have the same path stored**, from which neither can be had back. -/
theorem stored_paths_collide :
    let config : SourceConfig := ⟨⟨"dev"⟩, "Twins", [.ofString "d"]⟩
    let outcome := Ingest.run Relational.store (.ofTree twinTree) .quiet (.universal 7) (.ok ()) config
      (.ofTables (.fresh 0))
    twinTree.WellFormed ∧ twinTree.scan (.ofString "d") = .ok twinScan ∧
      outcome.report = .added ⟨1, "Twins", ⟨"dev"⟩⟩ [] ∧
      [3, 4].map outcome.db.committed.storedPath? = [some "d/\uFFFD", some "d/\uFFFD"] ∧
      (twinScan.entries.map (·.path)).Nodup ∧
      ¬ ∃ e ∈ twinScan.entries, e.path = Path.ofString "d/\uFFFD" := by
  intro config outcome
  refine ⟨FileTree.wellFormed_grown 0 (List.forall_mem_nil _) twins, by cbv, by cbv, by cbv, by decide, ?_⟩
  decide

end Casefile
