import Casefile.Proofs.Ingest.AllOrNothing

/-!
# What a run shows

* `Ingest.announcements` — the texts of a whole run: one before each path is scanned, and one before each
  entry is written.
* `Announced` — a part of a run has shown the first of some texts, and all of them if it got to its end.

Principal results: `scanAll_announced`, `writeScans_announced` — so do the parts of a run, whatever its
host, its scanner and its database do.  `work_announced` — so does the work of a run as a whole, and it
shows all of the texts unless its report is critical.
-/

set_option autoImplicit false

namespace Casefile

theorem Host.announce_texts {h : Host} {p q : Progress} {text : String} {broken? : Option String}
    (hannounce : h.announce p text = (q, broken?)) : q.texts = p.texts ++ [text] :=
  (congrArg (fun r : Progress × Option String => r.1.texts) hannounce).symm

/-- Behind the texts `before` the first of some texts were shown, and all of them if the part of the run
got to its end. -/
structure Announced (all before after : List String) (toEnd : Prop) : Prop where
  some : ∃ shown, shown <+: all ∧ after = before ++ shown
  whole : toEnd → after = before ++ all

namespace Announced

variable {all more a b c : List String} {text : String} {toEnd toEnd' : Prop}

theorem le (h : Announced all a b toEnd) : a.length ≤ b.length := by
  obtain ⟨shown, _, hb⟩ := h.some
  rw [hb, List.length_append]
  omega

/-- The part ends where it began. -/
theorem stays (hnot : ¬ toEnd) : Announced all a a toEnd :=
  ⟨⟨[], List.nil_prefix, by rw [List.append_nil]⟩, fun h => absurd h hnot⟩

/-- There was nothing to show. -/
theorem nothing : Announced [] a a toEnd :=
  ⟨⟨[], List.nil_prefix, by rw [List.append_nil]⟩, fun _ => by rw [List.append_nil]⟩

/-- One text was shown first. -/
theorem cons (hfirst : b = a ++ [text]) (h : Announced all b c toEnd) :
    Announced (text :: all) a c toEnd := by
  obtain ⟨shown, hshown, hc⟩ := h.some
  refine ⟨⟨text :: shown, List.cons_prefix_cons.2 ⟨rfl, hshown⟩, ?_⟩, ?_⟩
  · rw [hc, hfirst, List.append_assoc]
    rfl
  · intro hend
    rw [h.whole hend, hfirst, List.append_assoc]
    rfl

/-- None of the texts behind the first ones were shown. -/
theorem first (h : Announced all a b toEnd) (hnot : ¬ toEnd') : Announced (all ++ more) a b toEnd' := by
  obtain ⟨shown, hshown, hb⟩ := h.some
  exact ⟨⟨shown, hshown.trans (List.prefix_append _ _), hb⟩, fun hend => absurd hend hnot⟩

/-- A part that got to its end, and one behind it. -/
theorem append (h : Announced all a b toEnd) (hend : toEnd) (h' : Announced more b c toEnd') :
    Announced (all ++ more) a c toEnd' := by
  obtain ⟨shown, hshown, hc⟩ := h'.some
  have hb : b = a ++ all := h.whole hend
  refine ⟨⟨all ++ shown, (List.prefix_append_right_inj all).2 hshown, ?_⟩, ?_⟩
  · rw [hc, hb, List.append_assoc]
  · intro hend'
    rw [h'.whole hend', hb, List.append_assoc]

theorem imp (h : Announced all a b toEnd) (himp : toEnd' → toEnd) : Announced all a b toEnd' :=
  ⟨h.some, fun hend => h.whole (himp hend)⟩

end Announced

namespace Ingest

/-- The texts behind the checks of scanning. -/
def scanningTexts (paths : List Path) : List String :=
  paths.map fun path => "Scanning: " ++ path.display

/-- The texts behind the checks of writing some entries. -/
def addingTexts (entries : List Entry) : List String :=
  entries.map fun entry => "Adding: " ++ entry.path.display

/-- The texts of a whole run: one before each path is scanned, and one before each entry is written. -/
def announcements (paths : List Path) (scans : List Scan) : List String :=
  scanningTexts paths ++ addingTexts (scans.flatMap (·.entries))

variable {σ τ : Type} {store : Store σ τ} {scanner : Scanner} {host : Host}

theorem scanAll_announced :
    ∀ (paths : List Path) {n : Nat} {p : Progress} {r : Except Halt (List Scan) × Progress},
      scanAll scanner host n paths p = r →
      Announced (scanningTexts paths) p.texts r.2.texts (∃ scans, r.1 = .ok scans)
  | [], n, p, r, h => by
    cases h
    exact .nothing
  | path :: paths, n, p, r, h => by
    unfold scanAll at h
    split at h
    · cases h
      exact .stays fun hend => by cases hend.choose_spec
    · split at h
      · rename_i hannounce
        cases h
        exact .cons (Host.announce_texts hannounce) (.stays fun hend => by cases hend.choose_spec)
      · rename_i q hannounce
        refine .cons (Host.announce_texts hannounce) ?_
        split at h
        · cases h
          exact .stays fun hend => by cases hend.choose_spec
        · cases h
          exact .stays fun hend => by cases hend.choose_spec
        · split at h
          · rename_i hrest
            cases h
            exact (scanAll_announced paths hrest).imp fun _ => ⟨_, rfl⟩
          · rename_i hrest
            cases h
            exact (scanAll_announced paths hrest).imp fun hend => by cases hend.choose_spec

theorem writeEntries_announced {source : ObjectId} :
    ∀ (entries : List Entry) {ids : List ObjectId} {w : Writing σ τ}
      {r : Except Setback Unit × Writing σ τ}, writeEntries store host source entries ids w = r →
      Announced (addingTexts entries) w.progress.texts r.2.progress.texts (r.1 = .ok ())
  | [], ids, w, r, h => by
    cases h
    exact .nothing
  | entry :: entries, ids, w, r, h => by
    unfold writeEntries at h
    split at h
    · cases h
      exact .stays fun hend => by cases hend
    · split at h
      · rename_i hannounce
        cases h
        exact .cons (Host.announce_texts hannounce) (.stays fun hend => by cases hend)
      · rename_i q hannounce
        refine .cons (Host.announce_texts hannounce) ?_
        split at h
        · cases h
          exact .stays fun hend => by cases hend
        · split at h
          · cases h
            exact .stays fun hend => by cases hend
          · cases h
            exact .stays fun hend => by cases hend
          · exact writeEntries_announced entries h

theorem writeScans_announced {source : ObjectId} :
    ∀ (scans : List Scan) {w : Writing σ τ} {r : Except Setback Unit × Writing σ τ},
      writeScans store host source scans w = r →
      Announced (addingTexts (scans.flatMap (·.entries))) w.progress.texts r.2.progress.texts (r.1 = .ok ())
  | [], w, r, h => by
    cases h
    exact .nothing
  | scan :: scans, w, r, h => by
    have htexts : addingTexts ((scan :: scans).flatMap (·.entries)) =
        addingTexts scan.entries ++ addingTexts (scans.flatMap (·.entries)) := by
      simp [addingTexts]
    rw [htexts]
    unfold writeScans at h
    split at h
    · rename_i w₁ hentries
      exact (writeEntries_announced scan.entries hentries).append rfl (writeScans_announced scans h)
    · rename_i setback w₁ hentries
      cases h
      exact (writeEntries_announced scan.entries hentries).first fun hend => by cases hend

variable {clock : Clock} {config : SourceConfig}

theorem writeAll_announced {scans : List Scan} {w : Writing σ τ}
    {r : Except Setback Content × Writing σ τ} (h : writeAll store host clock config scans w = r) :
    Announced (addingTexts (scans.flatMap (·.entries))) w.progress.texts r.2.progress.texts
      (∃ content, r.1 = .ok content) := by
  unfold writeAll at h
  split at h
  · cases h
    exact .stays fun hend => by cases hend.choose_spec
  · cases h
    exact .stays fun hend => by cases hend.choose_spec
  · split at h
    · rename_i hscans
      cases h
      exact (writeScans_announced scans hscans).imp fun _ => rfl
    · rename_i hscans
      cases h
      exact (writeScans_announced scans hscans).imp fun hend => by cases hend.choose_spec

/-- The work of a run ends with a report that is not critical. -/
def Ending.Good (ending : Ending) : Prop :=
  ∃ report, ending = .ok report ∧ report.verdict ≠ .criticalErrors

theorem good_of_verdict {ending : Ending} (h : (finalReport ending).verdict ≠ .criticalErrors) :
    ending.Good := by
  cases ending with
  | ok report => exact ⟨report, rfl, h⟩
  | error text => exact absurd rfl h

theorem not_good_critical (message : String) : ¬ Ending.Good (.ok (.critical message)) := by
  rintro ⟨report, hreport, hverdict⟩
  cases hreport
  exact hverdict rfl

theorem not_good_error (text : String) : ¬ Ending.Good (.error text) := by
  rintro ⟨report, hreport, _⟩
  cases hreport

theorem not_good_halt (halt : Halt) : ¬ halt.ending.Good := by
  cases halt with
  | critical message => exact not_good_critical message
  | broken text => exact not_good_error text

theorem not_good_abandon (message : String) (tx : τ) (db : σ) :
    ¬ (abandon store message tx db).1.Good := by
  unfold abandon
  split
  · exact not_good_error _
  · exact not_good_critical message

/-- Only a transaction in which everything was written has a good end. -/
theorem of_good_conclude {errors : List String} {written : Except Setback Content} {tx : τ} {db : σ}
    (h : (conclude store errors written tx db).1.Good) : ∃ content, written = .ok content := by
  cases written with
  | ok content => exact ⟨content, rfl⟩
  | error setback =>
    cases setback with
    | cancelled => exact absurd h (not_good_abandon _ tx db)
    | failed e => exact absurd h (not_good_abandon _ tx db)
    | broken text => exact absurd h (not_good_error text)

theorem record_announced {scans : List Scan} {p : Progress} {db : σ} {w : Worked σ}
    (h : record store host clock config scans p db = w) :
    Announced (addingTexts (scans.flatMap (·.entries))) p.texts w.progress.texts w.ending.Good := by
  unfold record at h
  split at h
  · rw [← h]
    exact .stays (not_good_critical _)
  · rw [← h]
    exact .stays (not_good_error _)
  · rename_i tx db₁ _
    generalize hall : writeAll store host clock config scans ⟨p, tx, db₁⟩ = result at h
    rw [← h]
    exact (writeAll_announced hall).imp of_good_conclude

/-- What comes of the scans. -/
def scanned (store : Store σ τ) (host : Host) (clock : Clock) (config : SourceConfig) (db : σ) :
    Except Halt (List Scan) × Progress → Worked σ
  | (.error halt, p) => ⟨p, halt.ending, db⟩
  | (.ok scans, p) => record store host clock config scans p db

/-- Behind an undisturbed start the work is to scan, and then to record what was found. -/
theorem work_eq {p : Progress} {db : σ} (hstart : host.onStart = none) :
    work store scanner host clock (.ok ()) config p db =
      scanned store host clock config db
        (scanAll scanner host 0 config.paths (p.showIndeterminate true)) := by
  unfold work
  simp only [hstart]
  split <;> rename_i h <;> rw [h] <;> rfl

/-- **The work of a run shows one text before each path is scanned and one before each entry is written**, up
to where it ends, and all of them unless its report is critical. -/
theorem work_announced (scanner : Scanner) (current : Reply Unit) {p : Progress} {db : σ}
    {w : Worked σ} (h : work store scanner host clock current config p db = w) :
    ∃ scans, (scans = [] ∨ Scanned scanner 0 config.paths scans) ∧
      Announced (announcements config.paths scans) p.texts w.progress.texts w.ending.Good := by
  simp only [work] at h
  split at h
  · rw [← h]
    exact ⟨[], Or.inl rfl, .stays (not_good_error _)⟩
  · split at h
    · rw [← h]
      exact ⟨[], Or.inl rfl, .stays (not_good_critical _)⟩
    · rw [← h]
      exact ⟨[], Or.inl rfl, .stays (not_good_error _)⟩
    · split at h
      · rename_i halt q hscan
        rw [← h]
        exact ⟨[], Or.inl rfl, (scanAll_announced config.paths hscan).first (not_good_halt halt)⟩
      · rename_i scans q hscan
        obtain ⟨_, hscanned⟩ := scanAll_keeps config.paths hscan
        exact ⟨scans, Or.inr (hscanned scans rfl),
          (scanAll_announced config.paths hscan).append ⟨scans, rfl⟩ (record_announced h)⟩

end Ingest

end Casefile
