import Casefile.Proofs.Ingest.Cancellation
import Casefile.Proofs.Store.Watched

/-!
# The two phases of a run

* `Ingest.steps` — the entries of all scans in order, each with its place in its own scan.
* `HandedOver` — the entries that the database is asked to record, of those that were announced: all of them,
  or all but the last one.
* `Handed` — a part of a run that writes has announced the first of some steps, and handed over the entries
  of these.
* `Ingest.InPhases` — how far a run can have got: while it scans no call was made to the database, and while it
  writes every path has been scanned.

Principal results: `writeEntries_handed`, `writeScans_handed`, `record_handed` — writing announces each entry
and then hands it over.  `scanAll_refused` — scanning ends with the first path that cannot be scanned.
`run_scans_then_writes` — both for whole runs, whatever the host, the scanner and the database do.
-/

set_option autoImplicit false

namespace Casefile

/-- Other answers to later requests make no difference. -/
theorem Scanned.congr {scanner scanner' : Scanner} :
    ∀ {paths : List Path} {n : Nat} {scans : List Scan},
      (∀ i < n + paths.length, scanner' i = scanner i) → Scanned scanner n paths scans →
      Scanned scanner' n paths scans
  | [], _, _, _, h => h
  | path :: paths, n, _, hsame, h => by
    rw [List.length_cons] at hsame
    obtain ⟨scan, rest, hscans, hscan, hrest⟩ := h
    refine ⟨scan, rest, hscans, ?_, Scanned.congr (fun i hi => hsame i (by omega)) hrest⟩
    rw [hsame n (by omega)]
    exact hscan

namespace Ingest

/-- The entries of all scans in order, each with its place in its own scan. -/
def steps (scans : List Scan) : List (Entry × Nat) :=
  scans.flatMap fun scan => scan.entries.zipIdx

theorem map_fst_steps (scans : List Scan) : (steps scans).map (·.1) = scans.flatMap (·.entries) := by
  simp only [steps, List.map_flatMap, List.zipIdx_map_fst]

theorem steps_cons (scan : Scan) (scans : List Scan) :
    steps (scan :: scans) = scan.entries.zipIdx ++ steps scans := List.flatMap_cons

theorem addingTexts_append (entries more : List Entry) :
    addingTexts (entries ++ more) = addingTexts entries ++ addingTexts more := List.map_append

end Ingest

theorem Host.announce_broken {h : Host} {p q : Progress} {text breakdown : String}
    (hannounce : h.announce p text = (q, some breakdown)) :
    h.onText q.texts.length text = some breakdown := by
  rw [Host.announce_texts hannounce, List.length_append]
  exact congrArg (fun r : Progress × Option String => r.2) hannounce

/-! ## What is handed over -/

/-- The entries that the database was asked to record, of the steps that were announced; the last of these was
announced by the text of number `n`. -/
inductive HandedOver (host : Host) (n : Nat) : List (Entry × Nat) → List Entry → Prop where
  | all (shown : List (Entry × Nat)) : HandedOver host n shown (shown.map (·.1))
  /-- The last entry is missing: the call that announced it broke down. -/
  | broken {before : List (Entry × Nat)} {entry : Entry} {place : Nat} {text : String}
      (htext : host.onText n ("Adding: " ++ entry.path.display) = some text) :
      HandedOver host n (before ++ [(entry, place)]) (before.map (·.1))
  /-- The last entry is missing: it refers to a parent that is not an earlier entry of its scan. -/
  | orphan {before : List (Entry × Nat)} {entry : Entry} {place parent : Nat}
      (hparent : entry.parent = some parent) (hplace : place ≤ parent) :
      HandedOver host n (before ++ [(entry, place)]) (before.map (·.1))

/-- The steps before were all handed over. -/
theorem HandedOver.behind {host : Host} {n : Nat} {shown : List (Entry × Nat)} {handed : List Entry}
    (h : HandedOver host n shown handed) (before : List (Entry × Nat)) :
    HandedOver host n (before ++ shown) (before.map (·.1) ++ handed) := by
  cases h with
  | all =>
    rw [← List.map_append]
    exact .all _
  | broken htext =>
    rw [← List.map_append, ← List.append_assoc]
    exact .broken htext
  | orphan hparent hplace =>
    rw [← List.map_append, ← List.append_assoc]
    exact .orphan hparent hplace

/-- From the progress and the database `a` to `b` a run announced the first of some steps and handed over
their entries, and all of them if this part of it got to its end.  It did not commit. -/
structure Handed {σ : Type} (host : Host) (all : List (Entry × Nat)) (a b : Progress × Watched σ)
    (toEnd : Prop) : Prop where
  some : ∃ shown handed, shown <+: all ∧ HandedOver host b.1.texts.length shown handed ∧
    b.1.texts = a.1.texts ++ Ingest.addingTexts (shown.map (·.1)) ∧ b.2.entries = a.2.entries ++ handed
  whole : toEnd → b.1.texts = a.1.texts ++ Ingest.addingTexts (all.map (·.1)) ∧
    b.2.entries = a.2.entries ++ all.map (·.1)
  uncommitted : .commit ∈ b.2.calls → .commit ∈ a.2.calls

namespace Handed

variable {σ : Type} {host : Host} {all more : List (Entry × Nat)} {a b c : Progress × Watched σ}
  {toEnd toEnd' : Prop} {entry : Entry} {place : Nat}

/-- There was nothing to do. -/
theorem nothing : Handed host [] a a toEnd :=
  ⟨⟨[], [], List.nil_prefix, .all [], by simp [Ingest.addingTexts], by simp⟩,
    fun _ => by simp [Ingest.addingTexts], id⟩

/-- None of the steps behind the first ones were done. -/
theorem first (h : Handed host all a b toEnd) (hnot : ¬ toEnd') :
    Handed host (all ++ more) a b toEnd' := by
  obtain ⟨shown, handed, hshown, hrest⟩ := h.some
  exact ⟨⟨shown, handed, hshown.trans (List.prefix_append _ _), hrest⟩, fun hend => absurd hend hnot,
    h.uncommitted⟩

/-- The part ends where it began. -/
theorem stays (hnot : ¬ toEnd) : Handed host all a a toEnd := by
  have hnothing : Handed host [] a a False := nothing
  exact hnothing.first hnot

/-- A part that got to its end, and one behind it. -/
theorem append (h : Handed host all a b toEnd) (hend : toEnd) (h' : Handed host more b c toEnd') :
    Handed host (all ++ more) a c toEnd' := by
  obtain ⟨htexts, hentries⟩ := h.whole hend
  obtain ⟨shown, handed, hshown, hover, htexts', hentries'⟩ := h'.some
  refine ⟨⟨all ++ shown, all.map (·.1) ++ handed, (List.prefix_append_right_inj all).2 hshown,
    hover.behind all, ?_, ?_⟩, fun hend' => ?_, fun hc => h.uncommitted (h'.uncommitted hc)⟩
  · rw [htexts', htexts, List.map_append, Ingest.addingTexts_append, List.append_assoc]
  · rw [hentries', hentries, List.append_assoc]
  · obtain ⟨hall, hall'⟩ := h'.whole hend'
    rw [hall, hall', htexts, hentries, List.map_append, Ingest.addingTexts_append, List.append_assoc,
      List.append_assoc]
    exact ⟨rfl, rfl⟩

theorem imp (h : Handed host all a b toEnd) (himp : toEnd' → toEnd) : Handed host all a b toEnd' :=
  ⟨h.some, fun hend => h.whole (himp hend), h.uncommitted⟩

/-- One step was announced, and its entry was not handed over. -/
theorem announced (hover : HandedOver host b.1.texts.length [(entry, place)] [])
    (htexts : b.1.texts = a.1.texts ++ ["Adding: " ++ entry.path.display]) (hdb : b.2 = a.2)
    (hnot : ¬ toEnd) : Handed host ((entry, place) :: more) a b toEnd := by
  refine ⟨⟨[(entry, place)], [], by simp, hover, htexts, by simp [hdb]⟩, fun hend => absurd hend hnot, ?_⟩
  rw [hdb]
  exact id

/-- One step was announced, and its entry was handed over. -/
theorem step (request : FileRequest) {s : σ}
    (htexts : b.1.texts = a.1.texts ++ ["Adding: " ++ request.entry.path.display])
    (hdb : b.2 = a.2.note (.addFile request) s) : Handed host [(request.entry, place)] a b True := by
  have hentries : b.2.entries = a.2.entries ++ [request.entry] := by
    rw [hdb, Watched.note_entries]
    rfl
  refine ⟨⟨[(request.entry, place)], _, List.prefix_rfl, .all _, htexts, hentries⟩,
    fun _ => ⟨htexts, hentries⟩, ?_⟩
  rw [hdb, Watched.mem_note_calls]
  rintro (hc | hc)
  · exact hc
  · cases hc

/-- A call that hands over no entry and does not commit came first. -/
theorem call (call : StoreCall) {s : σ} {p : Progress} {w : Watched σ} (hentry : call.entry? = none)
    (hne : call ≠ .commit) (h : Handed host all (p, w.note call s) b toEnd) :
    Handed host all (p, w) b toEnd := by
  obtain ⟨hsome, hwhole, huncommitted⟩ := h
  simp only [Watched.note_entries, hentry, Option.toList_none, List.append_nil] at hsome hwhole
  refine ⟨hsome, hwhole, fun hc => ?_⟩
  rcases Watched.mem_note_calls.1 (huncommitted hc) with hc | hc
  · exact hc
  · exact absurd hc.symm hne

end Handed

namespace Ingest

variable {σ τ : Type} {store : Store σ τ} {scanner : Scanner} {host : Host}

/-- What goes wrong with the parent of an entry is that it is no earlier entry of its scan. -/
theorem parentId_eq_error {source : ObjectId} {ids : List ObjectId} {entry : Entry} {e : Failure}
    (h : parentId source ids entry = .error e) :
    ∃ parent, entry.parent = some parent ∧ ids.length ≤ parent := by
  unfold parentId at h
  split at h
  · cases h
  · rename_i parent hparent
    split at h
    · cases h
    · rename_i hids
      exact ⟨parent, hparent, List.getElem?_eq_none_iff.1 hids⟩

theorem writeEntries_handed {source : ObjectId} :
    ∀ (entries : List Entry) {ids : List ObjectId} {w : Writing (Watched σ) τ}
      {r : Except Setback Unit × Writing (Watched σ) τ},
      writeEntries store.watched host source entries ids w = r →
      Handed host (entries.zipIdx ids.length) (w.progress, w.db) (r.2.progress, r.2.db) (r.1 = .ok ())
  | [], ids, w, r, h => by
    cases h
    exact .nothing
  | entry :: entries, ids, w, r, h => by
    rw [List.zipIdx_cons]
    unfold writeEntries at h
    split at h
    · cases h
      exact .stays fun hend => by cases hend
    · split at h
      · rename_i hannounce
        cases h
        exact .announced (@HandedOver.broken _ _ [] _ _ _ (Host.announce_broken hannounce))
          (Host.announce_texts hannounce) rfl fun hend => by cases hend
      · rename_i p hannounce
        have htexts := Host.announce_texts hannounce
        split at h
        · rename_i hparent
          obtain ⟨parent, hsome, hle⟩ := parentId_eq_error hparent
          cases h
          exact .announced (@HandedOver.orphan _ _ [] _ _ _ hsome hle) htexts rfl fun hend => by cases hend
        · -- whatever the database answers, the entry has been handed over to it
          rename_i parent _
          have hstep : ∀ db : Watched σ,
              (store.watched.addFile ⟨source, parent, entry⟩ w.tx w.db).2.2 = db →
              Handed host [(entry, ids.length)] (w.progress, w.db) (p, db) True :=
            fun db hdb => .step ⟨source, parent, entry⟩ htexts hdb.symm
          split at h
          · rename_i hadd
            cases h
            exact (hstep _ (congrArg (·.2.2) hadd)).first fun hend => by cases hend
          · rename_i hadd
            cases h
            exact (hstep _ (congrArg (·.2.2) hadd)).first fun hend => by cases hend
          · rename_i id tx db hadd
            have hrest := writeEntries_handed entries h
            rw [List.length_append] at hrest
            exact (hstep _ (congrArg (·.2.2) hadd)).append trivial hrest

theorem writeScans_handed {source : ObjectId} :
    ∀ (scans : List Scan) {w : Writing (Watched σ) τ} {r : Except Setback Unit × Writing (Watched σ) τ},
      writeScans store.watched host source scans w = r →
      Handed host (steps scans) (w.progress, w.db) (r.2.progress, r.2.db) (r.1 = .ok ())
  | [], w, r, h => by
    cases h
    exact .nothing
  | scan :: scans, w, r, h => by
    rw [steps_cons]
    unfold writeScans at h
    split at h
    · rename_i hentries
      exact (writeEntries_handed scan.entries hentries).append rfl (writeScans_handed scans h)
    · rename_i hentries
      cases h
      exact (writeEntries_handed scan.entries hentries).first fun hend => by cases hend

variable {clock : Clock} {config : SourceConfig}

theorem writeAll_handed {scans : List Scan} {w : Writing (Watched σ) τ}
    {r : Except Setback Content × Writing (Watched σ) τ}
    (h : writeAll store.watched host clock config scans w = r) :
    Handed host (steps scans) (w.progress, w.db) (r.2.progress, r.2.db) (∃ content, r.1 = .ok content) := by
  have hcall : ∀ {db : Watched σ} {b : Progress × Watched σ} {toEnd : Prop},
      (store.watched.addSource (sourceRequest clock config) w.tx w.db).2.2 = db →
      Handed host (steps scans) (w.progress, db) b toEnd →
      Handed host (steps scans) (w.progress, w.db) b toEnd := by
    intro db b toEnd hdb hrest
    rw [← hdb] at hrest
    exact .call (.addSource _) rfl (fun hc => by cases hc) hrest
  unfold writeAll at h
  split at h
  · rename_i hadd
    cases h
    exact hcall (congrArg (·.2.2) hadd) (.stays fun hend => by cases hend.choose_spec)
  · rename_i hadd
    cases h
    exact hcall (congrArg (·.2.2) hadd) (.stays fun hend => by cases hend.choose_spec)
  · rename_i hadd
    refine hcall (congrArg (·.2.2) hadd) ?_
    split at h
    · rename_i hscans
      cases h
      exact (writeScans_handed scans hscans).imp fun _ => rfl
    · rename_i hscans
      cases h
      exact (writeScans_handed scans hscans).imp fun hend => by cases hend.choose_spec

theorem abandon_note (message : String) (tx : τ) (w : Watched σ) :
    ∃ s, (abandon store.watched message tx w).2 = w.note .rollback s := by
  unfold abandon
  split <;> rename_i hrollback <;> exact ⟨_, (congrArg Prod.snd hrollback).symm⟩

/-- The end of a transaction is one call that hands no entry over: a commit if everything was written. -/
theorem conclude_note {errors : List String} {written : Except Setback Content} {tx : τ} {w : Watched σ}
    {r : Ending × Watched σ} (h : conclude store.watched errors written tx w = r) :
    ∃ call s, r.2 = w.note call s ∧ call.entry? = none ∧
      (call = .commit ↔ ∃ content, written = .ok content) := by
  rw [← h]
  cases written with
  | ok content =>
    refine ⟨.commit, (store.commit tx w.inner).2, ?_, rfl, by simp⟩
    unfold conclude
    simp only
    split <;> rename_i hcommit <;> exact (congrArg Prod.snd hcommit).symm
  | error setback =>
    cases setback with
    | cancelled =>
      obtain ⟨s, hs⟩ := abandon_note cancelledMessage tx w
      exact ⟨.rollback, s, hs, rfl, by simp⟩
    | failed e =>
      obtain ⟨s, hs⟩ := abandon_note e.message tx w
      exact ⟨.rollback, s, hs, rfl, by simp⟩
    | broken text => exact ⟨.drop, store.drop tx w.inner, rfl, rfl, by simp⟩

/-- The end of a transaction hands nothing over, and commits only if everything was written. -/
theorem conclude_watched {errors : List String} {written : Except Setback Content} {tx : τ}
    {w : Watched σ} {r : Ending × Watched σ} (h : conclude store.watched errors written tx w = r) :
    r.2.entries = w.entries ∧
      (.commit ∈ r.2.calls → .commit ∈ w.calls ∨ ∃ content, written = .ok content) ∧
      (r.1.Good → .commit ∈ r.2.calls) := by
  obtain ⟨call, s, hr, hentry, hcommit⟩ := conclude_note h
  rw [hr, Watched.note_entries, hentry, Watched.mem_note_calls]
  refine ⟨List.append_nil _, fun hc => ?_, fun hgood => ?_⟩
  · exact hc.imp_right fun heq => hcommit.1 heq.symm
  · rw [← h] at hgood
    exact Or.inr (hcommit.2 (of_good_conclude hgood)).symm

/-- **Recording announces each entry and then hands it over**, and commits only behind the last one. -/
theorem record_handed {scans : List Scan} {p : Progress} {db : σ} {w : Worked (Watched σ)}
    (h : record store.watched host clock config scans p (.start db) = w) :
    (∃ shown, shown <+: steps scans ∧ w.progress.texts = p.texts ++ addingTexts (shown.map (·.1)) ∧
      HandedOver host w.progress.texts.length shown w.db.entries ∧
      (.commit ∈ w.db.calls → shown = steps scans)) ∧
      (w.ending.Good → .commit ∈ w.db.calls) := by
  have hbegun : ∀ {answer : Reply τ} {db₁ : Watched σ}, store.watched.begin (.start db) = (answer, db₁) →
      db₁ = (Watched.start db).note .begin (store.begin db).2 :=
    fun hbegin => (congrArg Prod.snd hbegin).symm
  have hnothing : ∀ {answer : Reply τ} {db₁ : Watched σ},
      store.watched.begin (.start db) = (answer, db₁) →
      HandedOver host p.texts.length [] db₁.entries ∧ .commit ∉ db₁.calls := by
    intro answer db₁ hbegin
    rw [hbegun hbegin]
    refine ⟨.all [], fun hc => ?_⟩
    rcases Watched.mem_note_calls.1 hc with hc | hc <;> cases hc
  unfold record at h
  split at h
  · rename_i hbegin
    obtain ⟨hover, hnot⟩ := hnothing hbegin
    rw [← h]
    exact ⟨⟨[], List.nil_prefix, (List.append_nil _).symm, hover, fun hc => absurd hc hnot⟩,
      fun hend => absurd hend (not_good_critical _)⟩
  · rename_i hbegin
    obtain ⟨hover, hnot⟩ := hnothing hbegin
    rw [← h]
    exact ⟨⟨[], List.nil_prefix, (List.append_nil _).symm, hover, fun hc => absurd hc hnot⟩,
      fun hend => absurd hend (not_good_error _)⟩
  · rename_i tx db₁ hbegin
    generalize hall : writeAll store.watched host clock config scans ⟨p, tx, db₁⟩ = result at h
    obtain ⟨written, w₁⟩ := result
    simp only at h
    generalize hend : conclude store.watched (scans.flatMap (·.errors)) written w₁.tx w₁.db = concluded at h
    have hhanded := writeAll_handed hall
    simp only [hbegun hbegin] at hhanded
    replace hhanded := hhanded.call .begin rfl (fun hc => by cases hc)
    obtain ⟨hentries, hcommit, hgood⟩ := conclude_watched hend
    rw [← h]
    refine ⟨?_, hgood⟩
    rw [hentries]
    by_cases hok : ∃ content, written = .ok content
    · obtain ⟨htexts, hall'⟩ := hhanded.whole hok
      refine ⟨steps scans, List.prefix_rfl, htexts, ?_, fun _ => rfl⟩
      rw [hall']
      exact .all _
    · obtain ⟨shown, handed, hshown, hover, htexts, hall'⟩ := hhanded.some
      rw [hall']
      refine ⟨shown, hshown, htexts, hover, fun hc => ?_⟩
      rcases hcommit hc with hc | hok'
      · exact absurd (hhanded.uncommitted hc) List.not_mem_nil
      · exact absurd hok' hok

/-- How far a run has got that has asked for the scans of the paths `asked` and announced the steps `shown`. -/
structure InPhases (scanner : Scanner) (host : Host) (paths asked : List Path) (scans : List Scan)
    (shown : List (Entry × Nat)) (texts : List String) (w : Watched σ) : Prop where
  paths_asked : asked <+: paths
  steps_shown : shown <+: steps scans
  told : texts = scanningTexts asked ++ addingTexts (shown.map (·.1))
  /-- No call was made to the database, or every path has been scanned. -/
  apart : w.calls = [] ∧ shown = [] ∨ asked = paths ∧ Scanned scanner 0 paths scans
  handed : HandedOver host texts.length shown w.entries
  committed : .commit ∈ w.calls → asked = paths ∧ shown = steps scans

namespace InPhases

variable {paths asked : List Path} {scans : List Scan} {shown : List (Entry × Nat)}
  {texts : List String} {w : Watched σ}

/-- A run that has not got to its second phase. -/
theorem scanning (hasked : asked <+: paths) (db : σ) :
    InPhases scanner host paths asked [] [] (scanningTexts asked) (Watched.start db) :=
  ⟨hasked, List.prefix_rfl, (List.append_nil _).symm, Or.inl ⟨rfl, rfl⟩, .all [], fun hc => by cases hc⟩

theorem texts_prefix (h : InPhases scanner host paths asked scans shown texts w) :
    texts <+: announcements paths scans := by
  unfold announcements
  rw [h.told, ← map_fst_steps]
  have hadding : addingTexts (shown.map (·.1)) <+: addingTexts ((steps scans).map (·.1)) :=
    (h.steps_shown.map _).map _
  rcases h.apart with ⟨_, hnone⟩ | ⟨hall, _⟩
  · rw [hnone]
    show scanningTexts asked ++ [] <+: _
    rw [List.append_nil]
    exact (h.paths_asked.map _).trans (List.prefix_append _ _)
  · rw [hall]
    exact (List.prefix_append_right_inj _).2 hadding

theorem texts_whole (h : InPhases scanner host paths asked scans shown texts w)
    (hcommit : .commit ∈ w.calls) : texts = announcements paths scans := by
  obtain ⟨hasked, hshown⟩ := h.committed hcommit
  rw [h.told, hasked, hshown, map_fst_steps]
  rfl

end InPhases

/-- **The work of a run first scans and then writes.** -/
theorem work_phases {current : Reply Unit} {db : σ} {w : Worked (Watched σ)}
    (h : work store.watched scanner host clock current config .none (.start db) = w) :
    (∃ asked scans shown,
      InPhases scanner host config.paths asked scans shown w.progress.texts w.db) ∧
      (w.ending.Good → .commit ∈ w.db.calls) := by
  simp only [work] at h
  split at h
  · rw [← h]
    exact ⟨⟨[], [], [], .scanning List.nil_prefix db⟩, fun hend => absurd hend (not_good_error _)⟩
  · split at h
    · rw [← h]
      exact ⟨⟨[], [], [], .scanning List.nil_prefix db⟩, fun hend => absurd hend (not_good_critical _)⟩
    · rw [← h]
      exact ⟨⟨[], [], [], .scanning List.nil_prefix db⟩, fun hend => absurd hend (not_good_error _)⟩
    · split at h
      · rename_i halt p hscan
        obtain ⟨texts, hprefix, htexts⟩ := (scanAll_announced config.paths hscan).some
        obtain ⟨asked, hasked, rfl⟩ := List.prefix_map_iff.1 hprefix
        rw [← h]
        refine ⟨⟨asked, [], [], ?_⟩, fun hend => absurd hend (not_good_halt halt)⟩
        rw [show p.texts = scanningTexts asked from htexts]
        exact .scanning hasked db
      · rename_i scans p hscan
        have htexts : p.texts = scanningTexts config.paths :=
          (scanAll_announced config.paths hscan).whole ⟨scans, rfl⟩
        have hscanned : Scanned scanner 0 config.paths scans :=
          (scanAll_keeps config.paths hscan).2 scans rfl
        obtain ⟨⟨shown, hshown, hrest, hover, hcommit⟩, hgood⟩ := record_handed h
        rw [htexts] at hrest
        exact ⟨⟨config.paths, scans, shown, List.prefix_rfl, hshown, hrest, Or.inr ⟨rfl, hscanned⟩, hover,
          fun hc => ⟨rfl, hcommit hc⟩⟩, hgood⟩

/-! ## Paths that cannot be scanned -/

/-- What the report says of a path that cannot be scanned. -/
def refusal (path : Path) : Reply Scan → Option String
  | .ok _ => none
  | .failed e => some ("Cannot add " ++ path.display ++ ": " ++ e.message)
  | .panicked text => some ("Scanning " ++ path.display ++ " failed: " ++ broken text)

theorem refusal_eq_none_iff {path : Path} {answer : Reply Scan} :
    refusal path answer = none ↔ ∃ scan, answer = .ok scan := by
  cases answer <;> simp [refusal]

/-- The first of some paths that cannot be scanned comes behind the paths `before`, and the report says
`message` of it; `n` requests were made before. -/
structure FirstRefused (scanner : Scanner) (n : Nat) (paths before : List Path) (path : Path)
    (message : String) : Prop where
  place : ∃ after, paths = before ++ path :: after
  scanned : ∃ scans, Scanned scanner n before scans
  refused : refusal path (scanner (n + before.length) path) = some message

/-- Other answers to later requests make no difference. -/
theorem FirstRefused.congr {scanner scanner' : Scanner} {n : Nat} {paths before : List Path} {path : Path}
    {message : String} (h : FirstRefused scanner n paths before path message)
    (hsame : ∀ i ≤ n + before.length, scanner' i = scanner i) :
    FirstRefused scanner' n paths before path message := by
  obtain ⟨hplace, ⟨scans, hscans⟩, hrefused⟩ := h
  refine ⟨hplace, ⟨scans, hscans.congr fun i hi => hsame i (Nat.le_of_lt hi)⟩, ?_⟩
  rw [hsame _ (Nat.le_refl _)]
  exact hrefused

/-- **Either all paths can be scanned, or there is a first one that cannot.** -/
theorem scanned_or_refused :
    ∀ (paths : List Path) {n : Nat}, (∃ scans, Scanned scanner n paths scans) ∨
      ∃ before path message, FirstRefused scanner n paths before path message
  | [], n => Or.inl ⟨[], rfl⟩
  | path :: paths, n => by
    cases hrefusal : refusal path (scanner n path) with
    | some message => exact Or.inr ⟨[], path, message, ⟨paths, rfl⟩, ⟨[], rfl⟩, hrefusal⟩
    | none =>
      obtain ⟨scan, hscan⟩ := refusal_eq_none_iff.1 hrefusal
      rcases scanned_or_refused paths with ⟨scans, hscans⟩ | ⟨before, other, message, hfirst⟩
      · exact Or.inl ⟨scan :: scans, scan, scans, rfl, hscan, hscans⟩
      · obtain ⟨⟨after, hplace⟩, ⟨scans, hscans⟩, hrefused⟩ := hfirst
        refine Or.inr ⟨path :: before, other, message, ⟨after, congrArg (path :: ·) hplace⟩,
          ⟨scan :: scans, scan, scans, rfl, hscan, hscans⟩, ?_⟩
        rw [List.length_cons, ← Nat.add_assoc, Nat.add_right_comm]
        exact hrefused

/-- The host lets a run ask for the scans of some paths; it has shown `n` texts before. -/
def Admits (host : Host) : Nat → List Path → Prop
  | _, [] => True
  | n, path :: paths =>
    host.stopsAt n = false ∧ host.onText (n + 1) ("Scanning: " ++ path.display) = none ∧
      Admits host (n + 1) paths

/-- **Scanning ends with the first path that cannot be scanned.** -/
theorem scanAll_refused {path : Path} {message : String} :
    ∀ (before : List Path) {paths : List Path} {n : Nat} {p : Progress},
      FirstRefused scanner n paths before path message → Admits host p.texts.length (before ++ [path]) →
      scanAll scanner host n paths p =
        (.error (.critical message), { p with texts := p.texts ++ scanningTexts (before ++ [path]) })
  | [], _, n, p, ⟨⟨after, hplace⟩, _, hrefused⟩, ⟨hrunning, htext, _⟩ => by
    rw [← Host.cancelled_eq] at hrunning
    rw [List.length_nil, Nat.add_zero] at hrefused
    simp only [hplace, List.nil_append, scanAll, hrunning, Host.announce, htext]
    cases hanswer : scanner n path with
    | ok scan =>
      rw [hanswer] at hrefused
      cases hrefused
    | failed e =>
      rw [hanswer] at hrefused
      cases hrefused
      rfl
    | panicked text =>
      rw [hanswer] at hrefused
      cases hrefused
      rfl
  | other :: before, _, n, p, ⟨⟨after, hplace⟩, ⟨_, scan, rest, _, hscan, hscanned⟩, hrefused⟩,
      ⟨hrunning, htext, hadmits⟩ => by
    rw [← Host.cancelled_eq] at hrunning
    let shown : Progress := { p with texts := p.texts ++ ["Scanning: " ++ other.display] }
    have hlength : shown.texts.length = p.texts.length + 1 := List.length_append
    have hfirst : FirstRefused scanner (n + 1) (before ++ path :: after) before path message := by
      refine ⟨⟨after, rfl⟩, ⟨rest, hscanned⟩, ?_⟩
      rw [Nat.add_right_comm, Nat.add_assoc]
      exact hrefused
    have hrest : scanAll scanner host (n + 1) (before ++ path :: after) shown = _ :=
      scanAll_refused before hfirst (hlength ▸ hadmits)
    simp only [hplace, List.cons_append, scanAll, hrunning, Host.announce, htext, hscan]
    rw [show (⟨p.indeterminate, p.texts ++ ["Scanning: " ++ other.display], p.done⟩ : Progress) = shown from rfl,
      hrest]
    simp [shown, scanningTexts]

/-- **The work of a run ends with the first path that cannot be scanned**, if nothing ends it before. -/
theorem work_refused {db : σ} {path : Path} {before : List Path} {message : String}
    (hfirst : FirstRefused scanner 0 config.paths before path message) (hstart : host.onStart = none)
    (hadmits : Admits host 0 (before ++ [path])) :
    work store scanner host clock (.ok ()) config .none db =
      ⟨⟨[true], scanningTexts (before ++ [path]), []⟩, .ok (.critical message), db⟩ := by
  rw [work_eq hstart, scanAll_refused (p := Progress.none.showIndeterminate true) before hfirst hadmits]
  rfl

end Ingest

/-! ## A whole run -/

section Run

variable {σ τ : Type}

/-- **Everything is scanned before anything is written**, whatever the host, the scanner and the database do.
The texts of a run are the first of: one for each path, then one for each entry of the scans; and they are
all of these if it commits.  No call is made to the database unless every path has been scanned, also where
the run ends at any of the paths.  The entries that are handed over are those that were announced, apart
from a last one that was announced by a call that broke down or that has no parent.  Unless all paths can be
scanned there is a first one that cannot; the report names it if nothing ends the run before, and then what
later scans would have given makes no difference.  The calls are those of a watched database, on which the
run is the same. -/
theorem run_scans_then_writes (store : Store σ τ) (scanner : Scanner) (host : Host) (clock : Clock)
    (current : Reply Unit) (config : SourceConfig) (db : σ) :
    let run := Ingest.run store scanner host clock current config db
    let watched := Ingest.run store.watched scanner host clock current config (.start db)
    let texts := run.progress.texts
    let calls := watched.db.calls
    (run.progress = watched.progress ∧ run.report = watched.report ∧ run.db = watched.db.inner) ∧
      (∃ asked scans shown,
        Ingest.InPhases scanner host config.paths asked scans shown texts watched.db ∧
          texts <+: Ingest.announcements config.paths scans ∧
          (.commit ∈ calls → texts = Ingest.announcements config.paths scans)) ∧
      (run.report.verdict ≠ .criticalErrors → .commit ∈ calls) ∧
      ((∃ scans, Scanned scanner 0 config.paths scans) ∨
        ∃ before path message, Ingest.FirstRefused scanner 0 config.paths before path message) ∧
      ∀ before path message, Ingest.FirstRefused scanner 0 config.paths before path message →
        host.onStart = none → current = .ok () → Ingest.Admits host 0 (before ++ [path]) →
        run.report = .critical message ∧ texts = Ingest.scanningTexts (before ++ [path]) ∧ calls = [] ∧
          ∀ scanner' : Scanner, (∀ i ≤ before.length, scanner' i = scanner i) →
            Ingest.run store scanner' host clock current config db = run := by
  intro run watched texts calls
  have hsame : run = ⟨watched.progress, watched.report, watched.db.inner⟩ :=
    Ingest.run_projects store.watched_projects scanner current (.start db)
  have htexts : texts = watched.progress.texts := congrArg (·.progress.texts) hsame
  have hreport : run.report = watched.report := congrArg (·.report) hsame
  obtain ⟨⟨asked, scans, shown, hphases⟩, hgood⟩ :=
    Ingest.work_phases (Eq.refl (Ingest.work store.watched scanner host clock current config .none (.start db)))
  refine ⟨⟨congrArg (·.progress) hsame, hreport, congrArg (·.db) hsame⟩,
    ⟨asked, scans, shown, ?_, ?_, ?_⟩, ?_, Ingest.scanned_or_refused config.paths, ?_⟩
  · rw [htexts]
    exact hphases
  · rw [htexts]
    exact hphases.texts_prefix
  · rw [htexts]
    exact hphases.texts_whole
  · rw [hreport]
    exact fun hverdict => hgood (Ingest.good_of_verdict hverdict)
  · rintro before path message hfirst hstart rfl hadmits
    have hrun : ∀ {ρ : Type} (store' : Store ρ τ) (scanner' : Scanner) (db' : ρ),
        (∀ i ≤ before.length, scanner' i = scanner i) →
        Ingest.run store' scanner' host clock (.ok ()) config db' =
          ⟨⟨[true], Ingest.scanningTexts (before ++ [path]), [.critical message]⟩, .critical message, db'⟩ := by
      intro ρ store' scanner' db' hagree
      rw [← Nat.zero_add before.length] at hagree
      unfold Ingest.run
      rw [Ingest.work_refused (hfirst.congr hagree) hstart hadmits]
      rfl
    have hself := hrun store scanner db fun _ _ => rfl
    refine ⟨congrArg (·.report) hself, congrArg (·.progress.texts) hself, ?_, fun scanner' hagree => ?_⟩
    · exact congrArg (·.db.calls) (hrun store.watched scanner (.start db) fun _ _ => rfl)
    · exact (hrun store scanner' db hagree).trans hself.symm

end Run

theorem run_scans_then_writes_gone :
    let config : SourceConfig := ⟨⟨"dev"⟩, "Case 2", ["/in/docs", "/gone", "/in/docs"].map .ofString⟩
    let scanner := Scanner.scripted [(.ofString "/in/docs", .ok docsScan)]
    let run := Ingest.run Relational.store scanner .quiet (.universal 7) (.ok ()) config
      (.ofTables (.fresh 0))
    run.report = .critical "Cannot add /gone: Not found: /gone" ∧
      run.progress.texts = ["Scanning: /in/docs", "Scanning: /gone"] := by
  intro config scanner run
  obtain ⟨_, _, _, _, hrefused⟩ := run_scans_then_writes Relational.store scanner .quiet (.universal 7)
    (.ok ()) config (.ofTables (.fresh 0))
  have hfirst : Ingest.FirstRefused scanner 0 config.paths [.ofString "/in/docs"] (.ofString "/gone")
      "Cannot add /gone: Not found: /gone" :=
    ⟨⟨[.ofString "/in/docs"], rfl⟩, ⟨[docsScan], docsScan, [], rfl, by decide, rfl⟩, by decide⟩
  obtain ⟨hreport, htexts, _⟩ := hrefused _ _ _ hfirst rfl rfl ⟨rfl, rfl, rfl, rfl, trivial⟩
  refine ⟨hreport, ?_⟩
  rw [htexts]
  decide

end Casefile
