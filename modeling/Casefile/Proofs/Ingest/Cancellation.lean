import Casefile.Cancellation
import Casefile.Proofs.Ingest.Announcements

/-!
# Stopping a run

* `Signal`, `Timeline` — what is done to the flag of a run, and when: before which of the checks.
* `Host.during` — the host whose requests to stop are those of a timeline; `Host.calm` — one that makes none.
* `Parts` — the two outcomes of work whose checks have the numbers from one on up to another: if the flag
  was down at all of them it ends as without requests, and if it was up at one it ends as cancelled.

Principal results: `scanAll_parts`, `writeEntries_parts`, `writeScans_parts`, `record_parts` — each part of a
run has only these two outcomes, and so have two parts one after the other.  `run_stopped` — so has a run,
and where it is cancelled nothing was added.
-/

set_option autoImplicit false

namespace Casefile

/-! ## The flag over time -/

/-- What can be done to the flag of a run. -/
inductive Signal where
  | cancel
  | clone
  | release
  deriving DecidableEq, Repr

namespace Cancellation

/-- The flag after one more signal. -/
def receive (c : Cancellation) : Signal → Cancellation
  | .cancel => c.cancel
  | .clone => c.clone
  | .release => c.release

/-- The flag after some signals. -/
def after (signals : List Signal) : Cancellation :=
  signals.foldl receive start

/-- No signal lowers the flag. -/
theorem receive_raised {c : Cancellation} (h : c.raised = true) (signal : Signal) :
    (c.receive signal).raised = true := by
  cases signal with
  | cancel =>
    unfold receive cancel
    rw [h]
    rfl
  | clone => exact h
  | release => exact h

theorem foldl_receive_raised :
    ∀ (signals : List Signal) {c : Cancellation}, c.raised = true →
      (signals.foldl receive c).raised = true
  | [], _, h => h
  | signal :: signals, _, h => foldl_receive_raised signals (receive_raised h signal)

/-- A flag that was raised stays so. -/
theorem after_append_raised {signals : List Signal} (h : (after signals).raised = true)
    (later : List Signal) : (after (signals ++ later)).raised = true := by
  unfold after
  rw [List.foldl_append]
  exact foldl_receive_raised later h

/-- **What one token has seen, every token sees from then on.** -/
theorem seen_stays {signals : List Signal} (h : true ∈ (after signals).seen) (later : List Signal) :
    ∀ b ∈ (after (signals ++ later)).seen, b = true := by
  have hraised : (after signals).raised = true := (List.eq_of_mem_replicate h).symm
  intro b hb
  rw [List.eq_of_mem_replicate hb]
  exact after_append_raised hraised later

end Cancellation

/-- The signals before each check of a run, in the order of the checks; none come later. -/
abbrev Timeline := List (List Signal)

namespace Timeline

/-- The flag at the check of a number, counted from 0. -/
def flagAt (t : Timeline) (i : Nat) : Cancellation :=
  .after (t.take (i + 1)).flatten

/-- The first check at which the flag is up. -/
def raisedAt? (t : Timeline) : Option Nat :=
  (List.range t.length).find? fun i => (t.flagAt i).raised

theorem flagAt_raised_mono (t : Timeline) {i j : Nat} (hij : i ≤ j)
    (h : (t.flagAt i).raised = true) : (t.flagAt j).raised = true := by
  obtain ⟨later, hlater⟩ : t.take (i + 1) <+: t.take (j + 1) :=
    List.take_prefix_take_left (Nat.succ_le_succ hij)
  unfold flagAt at h ⊢
  rw [← hlater, List.flatten_append]
  exact Cancellation.after_append_raised h _

/-- The flag is up from the first check on at which it is. -/
theorem raisedAt?_le_iff (t : Timeline) (i : Nat) :
    (∃ n, t.raisedAt? = some n ∧ n ≤ i) ↔ (t.flagAt i).raised = true := by
  constructor
  · rintro ⟨n, hfind, hle⟩
    have hraised : (t.flagAt n).raised = true := (List.find?_range_eq_some.1 hfind).1
    exact t.flagAt_raised_mono hle hraised
  · intro hraised
    -- behind the last check with signals before it the flag is as it was there
    have hlast : ∃ j, j ≤ i ∧ j < t.length ∧ (t.flagAt j).raised = true := by
      rcases Nat.lt_or_ge i t.length with hlt | hge
      · exact ⟨i, Nat.le_refl i, hlt, hraised⟩
      · cases hlen : t.length with
        | zero =>
          rw [List.eq_nil_of_length_eq_zero hlen] at hraised
          simp [flagAt, Cancellation.after, Cancellation.start] at hraised
        | succ k =>
          have hsame : t.flagAt i = t.flagAt k := by
            unfold flagAt
            rw [List.take_of_length_le (by omega), List.take_of_length_le (by omega)]
          rw [hsame] at hraised
          exact ⟨k, by omega, by omega, hraised⟩
    obtain ⟨j, hji, hj, hup⟩ := hlast
    cases hfind : t.raisedAt? with
    | none =>
      have hdown := List.find?_eq_none.1 hfind j (List.mem_range.2 hj)
      exact absurd hup hdown
    | some n =>
      refine ⟨n, rfl, ?_⟩
      rcases Nat.lt_or_ge i n with hlt | hge
      · have hbefore := List.find?_range_eq_some.1 hfind
        have hdown := hbefore.2.2 j (by omega)
        simp [hup] at hdown
      · exact hge

end Timeline

/-! ## Hosts that ask at given times -/

namespace Host

/-- Whether the host has asked for the run to stop by the check of a number, counted from 0. -/
def stopsAt (h : Host) (i : Nat) : Bool :=
  match h.cancelAfter? with
  | some n => n ≤ i
  | none => false

/-- Behind each check that lets a run go on it shows a text, so the texts count the checks. -/
theorem cancelled_eq (h : Host) (p : Progress) : h.cancelled p = h.stopsAt p.texts.length := rfl

/-- The host that never asks. -/
def calm (h : Host) : Host :=
  { h with cancelAfter? := none }

@[simp] theorem calm_cancelled (h : Host) (p : Progress) : h.calm.cancelled p = false := rfl

@[simp] theorem calm_announce (h : Host) (p : Progress) (text : String) :
    h.calm.announce p text = h.announce p text := rfl

/-- The host that asks when the flag is raised. -/
def during (h : Host) (t : Timeline) : Host :=
  { h with cancelAfter? := t.raisedAt? }

theorem during_stopsAt (h : Host) (t : Timeline) (i : Nat) :
    (h.during t).stopsAt i = (t.flagAt i).raised := by
  rw [Bool.eq_iff_iff, ← t.raisedAt?_le_iff i]
  unfold stopsAt during
  cases t.raisedAt? with
  | none => simp
  | some n => simp

end Host

/-! ## Two outcomes -/

/-- The outcomes of work whose checks have the numbers from `first` on up to `last`: if the flag was
down at all of them it ends as without requests, and if it was up at one it ends as cancelled. -/
inductive Parts (host : Host) (first last : Nat) {α : Type} (Cancelled : α → Prop) (calm : α) :
    α → Prop where
  | same (hle : first ≤ last) (clear : ∀ i, first ≤ i → i < last → host.stopsAt i = false) :
      Parts host first last Cancelled calm calm
  | stopped {other : α} (seen : ∃ i, first ≤ i ∧ i < last ∧ host.stopsAt i = true)
      (cancelled : Cancelled other) : Parts host first last Cancelled calm other

namespace Parts

variable {α β : Type} {host : Host} {first mid last : Nat} {P : α → Prop} {Q : β → Prop}
  {calm other : α}

theorem le (h : Parts host first last P calm other) : first ≤ last := by
  cases h with
  | same hle _ => exact hle
  | stopped hseen _ =>
    obtain ⟨i, hi, hlt, _⟩ := hseen
    omega

/-- Work without a check has one outcome. -/
theorem unchecked : Parts host first first P calm calm :=
  .same (Nat.le_refl first) fun _ hi hlt => absurd hlt (Nat.not_lt.2 hi)

/-- The flag was down at the checks before these. -/
theorem after (hclear : ∀ i, first ≤ i → i < mid → host.stopsAt i = false) (hle : first ≤ mid)
    (h : Parts host mid last P calm other) : Parts host first last P calm other := by
  cases h with
  | same hle' hrest =>
    refine .same (Nat.le_trans hle hle') ?_
    intro i hi hlt
    rcases Nat.lt_or_ge i mid with hmid | hmid
    · exact hclear i hi hmid
    · exact hrest i hmid hlt
  | stopped hseen hcancelled =>
    obtain ⟨i, hi, hlt, hup⟩ := hseen
    exact .stopped ⟨i, by omega, hlt, hup⟩ hcancelled

/-- One check, and the work behind it. -/
theorem check {stopped : α} (hstopped : P stopped) (h : Parts host (first + 1) last P calm other) :
    Parts host first last P calm (if host.stopsAt first = true then stopped else other) := by
  split
  · rename_i hup
    exact .stopped ⟨first, Nat.le_refl first, h.le, hup⟩ hstopped
  · rename_i hdown
    refine h.after ?_ (Nat.le_succ first)
    intro i hi hmid
    have heq : i = first := by omega
    rw [heq]
    simpa using hdown

/-- **Work and what comes behind it**, which leaves a cancelled outcome cancelled. -/
theorem bind {f g : α → β} (h : Parts host first mid P calm other)
    (hrest : Parts host mid last Q (f calm) (g calm)) (hg : ∀ a, P a → Q (g a)) :
    Parts host first last Q (f calm) (g other) := by
  have hle := hrest.le
  cases h with
  | same hle hclear => exact hrest.after hclear hle
  | stopped hseen hcancelled =>
    obtain ⟨i, hi, hlt, hup⟩ := hseen
    exact .stopped ⟨i, hi, by omega, hup⟩ (hg _ hcancelled)

theorem outcomes (h : Parts host first last P calm other) :
    (other = calm ∧ ∀ i, first ≤ i → i < last → host.stopsAt i = false) ∨
      P other ∧ ∃ i, first ≤ i ∧ i < last ∧ host.stopsAt i = true := by
  cases h with
  | same _ hclear => exact Or.inl ⟨rfl, hclear⟩
  | stopped hseen hcancelled => exact Or.inr ⟨hcancelled, hseen⟩

/-- What becomes of the outcomes without another check. -/
theorem map (f : α → β) (hf : ∀ a, P a → Q (f a)) (h : Parts host first last P calm other) :
    Parts host first last Q (f calm) (f other) :=
  h.bind .unchecked hf

end Parts

namespace Ingest

variable {σ τ : Type} {store : Store σ τ} {scanner : Scanner} {host : Host}

/-- Scanning was cancelled. -/
def ScanCancelled (r : Except Halt (List Scan) × Progress) : Prop :=
  r.1 = .error (.critical cancelledMessage)

/-- The scans of the paths behind one, with the scan of that one before them. -/
def withScan (scan : Scan) : Except Halt (List Scan) × Progress → Except Halt (List Scan) × Progress
  | (.ok scans, p) => (.ok (scan :: scans), p)
  | (.error halt, p) => (.error halt, p)

theorem withScan_snd (scan : Scan) (r : Except Halt (List Scan) × Progress) :
    (withScan scan r).2 = r.2 := by
  obtain ⟨result, p⟩ := r
  cases result <;> rfl

theorem ScanCancelled.withScan (scan : Scan) {r : Except Halt (List Scan) × Progress}
    (h : ScanCancelled r) : ScanCancelled (withScan scan r) := by
  obtain ⟨result, p⟩ := r
  unfold ScanCancelled at h
  rw [show result = _ from h]
  rfl

/-- **Scanning has two outcomes.** -/
theorem scanAll_parts :
    ∀ (paths : List Path) (n : Nat) (p : Progress),
      Parts host p.texts.length (scanAll scanner host.calm n paths p).2.texts.length ScanCancelled
        (scanAll scanner host.calm n paths p) (scanAll scanner host n paths p)
  | [], n, p => .unchecked
  | path :: paths, n, p => by
    unfold scanAll
    rw [if_neg (by simp), Host.calm_announce, Host.cancelled_eq]
    refine Parts.check rfl ?_
    cases hannounce : host.announce p ("Scanning: " ++ path.display) with
    | mk q broken? =>
      have hnext : p.texts.length + 1 = q.texts.length := by
        rw [Host.announce_texts hannounce, List.length_append]
        rfl
      rw [hnext]
      cases broken? with
      | some text => exact .unchecked
      | none =>
        simp only
        cases scanner n path with
        | failed e => exact .unchecked
        | panicked text => exact .unchecked
        | ok scan =>
          have hrest := scanAll_parts paths (n + 1) q
          show Parts host _ (withScan scan (scanAll scanner host.calm (n + 1) paths q)).2.texts.length _
            (withScan scan (scanAll scanner host.calm (n + 1) paths q))
            (withScan scan (scanAll scanner host (n + 1) paths q))
          rw [withScan_snd]
          exact hrest.map (withScan scan) fun _ h => h.withScan scan

/-- Writing was cancelled. -/
def WriteCancelled {α : Type} (r : Except Setback α × Writing σ τ) : Prop :=
  r.1 = .error .cancelled

/-- **Writing the entries of a scan has two outcomes.** -/
theorem writeEntries_parts (source : ObjectId) :
    ∀ (entries : List Entry) (ids : List ObjectId) (w : Writing σ τ),
      Parts host w.progress.texts.length
        (writeEntries store host.calm source entries ids w).2.progress.texts.length WriteCancelled
        (writeEntries store host.calm source entries ids w)
        (writeEntries store host source entries ids w)
  | [], ids, w => .unchecked
  | entry :: entries, ids, w => by
    unfold writeEntries
    rw [if_neg (by simp), Host.calm_announce, Host.cancelled_eq]
    refine Parts.check rfl ?_
    cases hannounce : host.announce w.progress ("Adding: " ++ entry.path.display) with
    | mk q broken? =>
      have hnext : w.progress.texts.length + 1 = q.texts.length := by
        rw [Host.announce_texts hannounce, List.length_append]
        rfl
      rw [hnext]
      cases broken? with
      | some text => exact .unchecked
      | none =>
        simp only
        cases parentId source ids entry with
        | error e => exact .unchecked
        | ok parent =>
          simp only
          rcases store.addFile ⟨source, parent, entry⟩ w.tx w.db with ⟨answer, tx, db⟩
          cases answer with
          | failed e => exact .unchecked
          | panicked text => exact .unchecked
          | ok id => exact writeEntries_parts source entries (ids ++ [id]) ⟨q, tx, db⟩

/-- What writing some scans makes of the writing before it. -/
def writeBehind (store : Store σ τ) (host : Host) (source : ObjectId) (scans : List Scan) :
    Except Setback Unit × Writing σ τ → Except Setback Unit × Writing σ τ
  | (.ok (), w) => writeScans store host source scans w
  | (.error setback, w) => (.error setback, w)

theorem writeScans_cons (source : ObjectId) (scan : Scan) (scans : List Scan) (w : Writing σ τ) :
    writeScans store host source (scan :: scans) w =
      writeBehind store host source scans (writeEntries store host source scan.entries [] w) := by
  rw [writeScans]
  split <;> rename_i h <;> rw [h] <;> rfl

/-- **So has writing the entries of all scans.** -/
theorem writeScans_parts (source : ObjectId) :
    ∀ (scans : List Scan) (w : Writing σ τ),
      Parts host w.progress.texts.length
        (writeScans store host.calm source scans w).2.progress.texts.length WriteCancelled
        (writeScans store host.calm source scans w) (writeScans store host source scans w)
  | [], w => .unchecked
  | scan :: scans, w => by
    rw [writeScans_cons, writeScans_cons]
    refine (writeEntries_parts source scan.entries [] w).bind ?_ ?_
    · generalize writeEntries store host.calm source scan.entries [] w = calm
      obtain ⟨result, w₁⟩ := calm
      cases result with
      | ok _ => exact writeScans_parts source scans w₁
      | error setback => exact .unchecked
    · rintro ⟨result, w₁⟩ rfl
      rfl

variable {clock : Clock} {config : SourceConfig}

/-- What comes of writing all scans below a source that has been recorded. -/
def withContent (content : Content) :
    Except Setback Unit × Writing σ τ → Except Setback Content × Writing σ τ
  | (.ok (), w) => (.ok content, w)
  | (.error setback, w) => (.error setback, w)

theorem withContent_snd (content : Content) (r : Except Setback Unit × Writing σ τ) :
    (withContent content r).2 = r.2 := by
  obtain ⟨result, w⟩ := r
  cases result <;> rfl

theorem writeAll_parts (scans : List Scan) (w : Writing σ τ) :
    Parts host w.progress.texts.length
      (writeAll store host.calm clock config scans w).2.progress.texts.length WriteCancelled
      (writeAll store host.calm clock config scans w) (writeAll store host clock config scans w) := by
  unfold writeAll
  rcases store.addSource (sourceRequest clock config) w.tx w.db with ⟨answer, tx, db⟩
  cases answer with
  | failed e => exact .unchecked
  | panicked text => exact .unchecked
  | ok content =>
    show Parts host _ (withContent content (writeScans store host.calm _ scans _)).2.progress.texts.length
      _ (withContent content (writeScans store host.calm _ scans _))
      (withContent content (writeScans store host _ scans _))
    rw [withContent_snd]
    refine (writeScans_parts content.objectId scans { w with tx, db }).map (withContent content) ?_
    rintro ⟨result, w₁⟩ rfl
    rfl

/-- The work of a run was cancelled: its report says so, unless the rollback broke down. -/
def Cancelled (store : Store σ τ) (w : Worked σ) : Prop :=
  w.ending = .ok (.critical cancelledMessage) ∨
    ∃ text tx db, store.rollback tx db = (.panicked text, w.db) ∧ w.ending = .error text

/-- What is left behind once everything has been written, or not. -/
def concluded (store : Store σ τ) (errors : List String)
    (r : Except Setback Content × Writing σ τ) : Worked σ :=
  ⟨r.2.progress, (conclude store errors r.1 r.2.tx r.2.db).1,
    (conclude store errors r.1 r.2.tx r.2.db).2⟩

theorem WriteCancelled.concluded {errors : List String} {r : Except Setback Content × Writing σ τ}
    (h : WriteCancelled r) : Cancelled store (concluded store errors r) := by
  obtain ⟨result, w⟩ := r
  rw [show result = .error .cancelled from h]
  unfold Cancelled Ingest.concluded conclude abandon
  simp only
  cases hroll : store.rollback w.tx w.db with
  | mk answer db =>
    cases answer with
    | ok _ => exact Or.inl rfl
    | failed e => exact Or.inl rfl
    | panicked text => exact Or.inr ⟨text, w.tx, w.db, hroll, rfl⟩

theorem record_parts (scans : List Scan) (p : Progress) (db : σ) :
    Parts host p.texts.length (record store host.calm clock config scans p db).progress.texts.length
      (Cancelled store) (record store host.calm clock config scans p db)
      (record store host clock config scans p db) := by
  unfold record
  rcases store.begin db with ⟨answer, db₁⟩
  cases answer with
  | failed e => exact .unchecked
  | panicked text => exact .unchecked
  | ok tx =>
    exact (writeAll_parts scans ⟨p, tx, db₁⟩).map (concluded store (scans.flatMap (·.errors)))
      fun _ h => h.concluded

/-- **So has the work of a run as a whole.** -/
theorem work_parts (scanner : Scanner) (current : Reply Unit) (p : Progress) (db : σ) :
    Parts host p.texts.length
      (work store scanner host.calm clock current config p db).progress.texts.length
      (Cancelled store) (work store scanner host.calm clock current config p db)
      (work store scanner host clock current config p db) := by
  cases hstart : host.onStart with
  | some text =>
    have hcalm : host.calm.onStart = some text := hstart
    simp only [work, hstart, hcalm]
    exact .unchecked
  | none =>
    have hcalm : host.calm.onStart = none := hstart
    cases current with
    | failed e =>
      simp only [work, hstart, hcalm]
      exact .unchecked
    | panicked text =>
      simp only [work, hstart, hcalm]
      exact .unchecked
    | ok _ =>
      rw [work_eq hcalm, work_eq hstart]
      refine (scanAll_parts config.paths 0 (p.showIndeterminate true)).bind ?_ ?_
      · generalize scanAll scanner host.calm 0 config.paths (p.showIndeterminate true) = calm
        obtain ⟨result, q⟩ := calm
        cases result with
        | ok scans => exact record_parts scans q db
        | error halt => exact .unchecked
      · rintro ⟨result, q⟩ rfl
        exact Or.inl rfl

end Ingest

/-! ## Who says that a run was cancelled -/

/-- Two texts differ if they begin in different ways. -/
theorem append_ne_of_take {start s : String} (n : Nat) (hn : n ≤ start.toList.length)
    (hne : start.toList.take n ≠ s.toList.take n) (rest : String) : start ++ rest ≠ s := by
  intro heq
  apply hne
  rw [← heq, String.toList_append, List.take_append_of_le_length hn]

theorem Failure.message_ne_cancelled (e : Failure) : e.message ≠ Ingest.cancelledMessage := by
  unfold Ingest.cancelledMessage
  cases e with
  | noCurrentCase => decide
  | _ => exact append_ne_of_take 1 (by decide) (by decide) _

theorem Report.critical_ne {message message' : String} (h : message ≠ message') :
    Report.critical message ≠ .critical message' := by
  intro heq
  apply h
  simpa [Report.critical] using heq

namespace Ingest

variable {σ τ : Type} {store : Store σ τ} {scanner : Scanner} {host : Host} {clock : Clock}
  {config : SourceConfig}

/-- The report that goes with an end does not say that the run was cancelled. -/
def Ending.Silent (ending : Ending) : Prop :=
  finalReport ending ≠ .critical cancelledMessage

theorem silent_error (text : String) : Ending.Silent (.error text) :=
  Report.critical_ne (append_ne_of_take 20 (by decide) (by decide) _)

theorem silent_failure (e : Failure) : Ending.Silent (.ok (.critical e.message)) :=
  Report.critical_ne e.message_ne_cancelled

theorem silent_added (content : Content) (errors : List String) :
    Ending.Silent (.ok (.added content errors)) := by
  intro heq
  have hcontents := congrArg Report.contents heq
  cases hcontents

/-- Scanning without a request to stop is not cancelled. -/
theorem scanAll_silent :
    ∀ (paths : List Path) (n : Nat) (p : Progress) (halt : Halt),
      (scanAll scanner host.calm n paths p).1 = .error halt → halt.ending.Silent
  | [], n, p, halt, h => by cases h
  | path :: paths, n, p, halt, h => by
    unfold scanAll at h
    rw [if_neg (by simp)] at h
    split at h
    · cases h
      exact silent_error _
    · split at h
      · cases h
        refine Report.critical_ne ?_
        rw [String.append_assoc, String.append_assoc]
        exact append_ne_of_take 1 (by decide) (by decide) _
      · cases h
        refine Report.critical_ne ?_
        rw [String.append_assoc, String.append_assoc]
        exact append_ne_of_take 1 (by decide) (by decide) _
      · split at h
        · cases h
        · rename_i hrest
          cases h
          exact scanAll_silent paths _ _ halt (congrArg Prod.fst hrest)

/-- Nor is writing. -/
theorem writeEntries_calm_ne (source : ObjectId) :
    ∀ (entries : List Entry) (ids : List ObjectId) (w : Writing σ τ),
      ¬ WriteCancelled (writeEntries store host.calm source entries ids w)
  | [], ids, w, h => by cases h
  | entry :: entries, ids, w, h => by
    unfold writeEntries at h
    rw [if_neg (by simp)] at h
    split at h
    · cases h
    · split at h
      · cases h
      · split at h
        · cases h
        · cases h
        · exact writeEntries_calm_ne source entries _ _ h

theorem writeScans_calm_ne (source : ObjectId) :
    ∀ (scans : List Scan) (w : Writing σ τ),
      ¬ WriteCancelled (writeScans store host.calm source scans w)
  | [], w, h => by cases h
  | scan :: scans, w, h => by
    unfold writeScans at h
    split at h
    · exact writeScans_calm_ne source scans _ h
    · rename_i setback w₁ hentries
      have hne : ¬ WriteCancelled (writeEntries store host.calm source scan.entries [] w) :=
        writeEntries_calm_ne source scan.entries [] w
      rw [hentries] at hne
      exact hne h

theorem writeAll_calm_ne (scans : List Scan) (w : Writing σ τ) :
    ¬ WriteCancelled (writeAll store host.calm clock config scans w) := by
  intro h
  unfold writeAll at h
  split at h
  · cases h
  · cases h
  · rename_i content tx db _
    split at h
    · cases h
    · rename_i setback w₁ hscans
      have hne : ¬ WriteCancelled
          (writeScans store host.calm content.objectId scans { w with tx, db }) :=
        writeScans_calm_ne content.objectId scans { w with tx, db }
      rw [hscans] at hne
      cases h
      exact hne rfl

theorem conclude_silent {errors : List String} {written : Except Setback Content}
    (hne : written ≠ .error .cancelled) (tx : τ) (db : σ) :
    (conclude store errors written tx db).1.Silent := by
  cases written with
  | ok content =>
    unfold conclude
    simp only
    split
    · exact silent_added content errors
    · exact silent_failure _
    · exact silent_error _
  | error setback =>
    cases setback with
    | cancelled => exact absurd rfl hne
    | broken text => exact silent_error text
    | failed e =>
      unfold conclude abandon
      simp only
      split
      · exact silent_error _
      · exact silent_failure e

/-- **Without a request to stop the report does not say that the run was cancelled.** -/
theorem work_silent (scanner : Scanner) (current : Reply Unit) (p : Progress) (db : σ) :
    (work store scanner host.calm clock current config p db).ending.Silent := by
  cases hstart : host.calm.onStart with
  | some text =>
    simp only [work, hstart]
    exact silent_error text
  | none =>
    cases current with
    | failed e =>
      simp only [work, hstart]
      exact silent_failure e
    | panicked text =>
      simp only [work, hstart]
      exact silent_error text
    | ok _ =>
      rw [work_eq hstart]
      cases hscan : scanAll scanner host.calm 0 config.paths (p.showIndeterminate true) with
      | mk result q =>
        cases result with
        | error halt => exact scanAll_silent _ _ _ halt (congrArg Prod.fst hscan)
        | ok scans =>
          show (record store host.calm clock config scans q db).ending.Silent
          unfold record
          split
          · exact silent_failure _
          · exact silent_error _
          · exact conclude_silent (writeAll_calm_ne scans _) _ _

end Ingest

/-! ## A whole run -/

/-- What a run leaves behind whose work has left something behind. -/
def Ingest.Worked.outcome {σ : Type} (w : Worked σ) : Outcome σ :=
  ⟨w.progress.deliver (finalReport w.ending), finalReport w.ending, w.db⟩

section Run

variable {σ τ κ : Type} {store : Store σ τ}

/-- **Stopping a run has only two outcomes**, whenever its flag is raised.  The run without requests shows a
text behind each of its checks: one before each path is scanned and one before each entry is written.  If the
flag is down at all these checks, the run is that one.  If it is up at one of them, the report says that the
run was cancelled, or gives the account of the rollback if that broke down, and nothing was added.  The
report says so in no other case; and a flag that any token has seen up is never seen down again. -/
theorem run_stopped (c : store.Contract κ) (scanner : Scanner) (host : Host) (clock : Clock)
    (current : Reply Unit) (config : SourceConfig) (db : σ) (hv : c.Valid db) (t : Timeline) :
    let calm := Ingest.run store scanner host.calm clock current config db
    let other := Ingest.run store scanner (host.during t) clock current config db
    let seen := ∃ i < calm.progress.texts.length, (t.flagAt i).raised = true
    (∃ scans, (scans = [] ∨ Scanned scanner 0 config.paths scans) ∧
        calm.progress.texts <+: Ingest.announcements config.paths scans ∧
        (calm.report.verdict ≠ .criticalErrors →
          calm.progress.texts = Ingest.announcements config.paths scans)) ∧
      (¬ seen → other = calm) ∧
      (seen → c.LeftOut other.report (c.contents db) (c.contents other.db) ∧
        (other.report = .critical Ingest.cancelledMessage ∨
          ∃ text tx s, store.rollback tx s = (.panicked text, other.db) ∧
            other.report = Ingest.finalReport (.error text))) ∧
      (other.report = .critical Ingest.cancelledMessage → seen) ∧
      ∀ signals, true ∈ (Cancellation.after signals).seen →
        ∀ later, ∀ b ∈ (Cancellation.after (signals ++ later)).seen, b = true := by
  intro calm other seen
  have hparts : Parts (host.during t) 0 calm.progress.texts.length (Ingest.Cancelled store)
      (Ingest.work store scanner host.calm clock current config .none db)
      (Ingest.work store scanner (host.during t) clock current config .none db) :=
    Ingest.work_parts scanner current .none db
  have hsilent : calm.report ≠ .critical Ingest.cancelledMessage :=
    Ingest.work_silent scanner current .none db
  -- a check is numbered by the texts before it, and the timeline says whether the flag is up there
  have hseen : (∃ i, 0 ≤ i ∧ i < calm.progress.texts.length ∧ (host.during t).stopsAt i = true) ↔
      seen := by
    simp only [Nat.zero_le, true_and, Host.during_stopsAt]
    rfl
  have hsame : ¬ seen → other = calm := by
    intro hnot
    rcases hparts.outcomes with ⟨heq, _⟩ | ⟨_, hup⟩
    · exact congrArg Ingest.Worked.outcome heq
    · exact absurd (hseen.1 hup) hnot
  refine ⟨?_, hsame, ?_, ?_, ?_⟩
  · obtain ⟨scans, hscans, hannounced⟩ := Ingest.work_announced scanner current
      (Eq.refl (Ingest.work store scanner host.calm clock current config .none db))
    obtain ⟨shown, hshown, htexts⟩ := hannounced.some
    refine ⟨scans, hscans, ?_, ?_⟩
    · rw [show calm.progress.texts = shown from htexts]
      exact hshown
    · intro hverdict
      exact hannounced.whole (Ingest.good_of_verdict hverdict)
  · intro hup
    rcases hparts.outcomes with ⟨_, hclear⟩ | ⟨hcancelled, _⟩
    · obtain ⟨i, hi, hlt, hraised⟩ := hseen.2 hup
      rw [hclear i hi hlt] at hraised
      cases hraised
    · have hreport : other.report = .critical Ingest.cancelledMessage ∨
          ∃ text tx s, store.rollback tx s = (.panicked text, other.db) ∧
            other.report = Ingest.finalReport (.error text) := by
        rcases hcancelled with hending | ⟨text, tx, s, hpanic, hending⟩
        · exact Or.inl (congrArg Ingest.finalReport hending)
        · exact Or.inr ⟨text, tx, s, hpanic, congrArg Ingest.finalReport hending⟩
      have hverdict : other.report.verdict = .criticalErrors := by
        rcases hreport with hreport | ⟨_, _, _, _, hreport⟩ <;> rw [hreport] <;> rfl
      obtain ⟨_, _, hend⟩ := work_ends scanner (host.during t) clock config hv current .none rfl
      rcases hend with htook | hleft
      · exact absurd hverdict htook.verdict_ne
      · exact ⟨hleft, hreport⟩
  · intro hreport
    by_cases hup : seen
    · exact hup
    · rw [hsame hup] at hreport
      exact absurd hreport hsilent
  · intro signals htrue later
    exact Cancellation.seen_stays htrue later

end Run

/-- A run over a directory with one file: its three checks are before the scan and before each entry. -/
def docsConfig : SourceConfig :=
  ⟨⟨"dev"⟩, "Case 2", [.ofString "/in/docs"]⟩

theorem run_stopped_while_adding :
    let db := (history 0 (eventful ++ [.call (.drop "c")])).db
    let t : Timeline := [[.clone], [.cancel], [.release]]
    let other := Ingest.run Relational.store (fun _ _ => .ok docsScan) (Host.quiet.during t)
      (.universal 7) (.ok ()) docsConfig db
    other.report = .critical Ingest.cancelledMessage ∧ db.committed = other.db.committed := by
  intro db t other
  have hv : db.committed.WellFormed := (history_inv 0 (eventful ++ [.call (.drop "c")])).committed
  obtain ⟨_, _, hseen, _, _⟩ := run_stopped Relational.contract (fun _ _ => .ok docsScan) .quiet
    (.universal 7) (.ok ()) docsConfig db hv t
  obtain ⟨hleft, hreport⟩ := hseen ⟨1, by decide, by decide⟩
  refine ⟨?_, hleft.2.2.2⟩
  rcases hreport with hreport | ⟨_, _, _, hpanic, _⟩
  · exact hreport
  · cases hpanic

/-- A run whose rollback breaks down does not say that it was cancelled. -/
theorem run_stopped_breakdown :
    let store := Relational.store.withFaults [⟨.rollback, 1, .panic "boom"⟩]
    let run := fun host => Ingest.run store (fun _ _ => .ok docsScan) host (.universal 7) (.ok ())
      docsConfig (.start (.ofTables (.fresh 0)))
    let t : Timeline := [[], [.cancel]]
    (∃ i < (run Host.quiet.calm).progress.texts.length, (t.flagAt i).raised = true) ∧
      (run (Host.quiet.during t)).report ≠ .critical Ingest.cancelledMessage ∧
      (run (Host.quiet.during t)).report ≠ (run Host.quiet.calm).report := by
  intro store run t
  refine ⟨⟨1, by decide, by decide⟩, ?_, ?_⟩
  · decide
  · decide

end Casefile
