import Casefile.Proofs.Tables.WellFormed
import Casefile.Tables.Schema
import Mathlib.Data.List.Induction
import Mathlib.Data.List.Nodup

/-!
# A case opened by several at once

Opening a case takes two steps: it looks at the version of the schema, and if that is behind it brings the
tables up to date in a transaction.  Others can take steps of their own in between.

* `Opening.step` — one step of an opening; `Opening.alone` — both of them with nobody else around are
  `Tables.migrate`.
* `Openings` — the tables, and how far each opening has come; a schedule says who takes the next step.
* `Openings.undecided`, `Openings.decided` — before and after the first transaction.

Principal result: `openings_race` — after any schedule on a database without tables, either nobody has
made a transaction, or the first one has made all the tables, and of the others exactly those are
refused that had looked before it and go on.
-/

set_option autoImplicit false

namespace Casefile

/-- How far an opening has come. -/
inductive Opening where
  | waiting
  /-- It has found the schema behind. -/
  | behind
  | opened
  | refused (e : Failure)
  deriving DecidableEq, Repr

namespace Opening

/-- The next step of an opening, with the tables after it. -/
def step (now : Int) (t : Tables) : Opening → Opening × Tables
  | .waiting => (if t.version < Tables.latestVersion then .behind else .opened, t)
  | .behind =>
    match t.installSchema now with
    | .ok t => (.opened, t)
    | .error e => (.refused e, t)
  | .opened => (.opened, t)
  | .refused e => (.refused e, t)

/-- How an opening ends that has no other beside it. -/
def ofMigrate (t : Tables) : Except Failure Tables → Opening × Tables
  | .ok t => (.opened, t)
  | .error e => (.refused e, t)

/-- **The steps of an opening with nobody else around bring the tables up to date.** -/
theorem alone (now : Int) (t : Tables) :
    (step now t .waiting).1.step now t = ofMigrate t (t.migrate now) := by
  by_cases hbehind : t.version < Tables.latestVersion
  · simp only [step, Tables.migrate, if_pos hbehind]
    cases t.installSchema now <;> rfl
  · simp only [step, Tables.migrate, if_neg hbehind]
    rfl

theorem step_waiting_fresh (now at' : Int) :
    step now (.fresh at') .waiting = (.opened, .fresh at') := rfl

/-- The row for the version is there already. -/
theorem step_behind_fresh (now at' : Int) :
    step now (.fresh at') .behind =
      (.refused (Tables.taken Tables.versionsName "version"), .fresh at') := rfl

end Opening

/-- A case that is opened by any number of processes: its tables, and how far each process has come. -/
structure Openings where
  tables : Tables
  process : Nat → Opening

namespace Openings

/-- One process takes its next step at a time. -/
def step (o : Openings) (turn : Nat × Int) : Openings where
  tables := ((o.process turn.1).step turn.2 o.tables).2
  process := Function.update o.process turn.1 ((o.process turn.1).step turn.2 o.tables).1

/-- The steps of a schedule, from a database without tables on. -/
def run (schedule : List (Nat × Int)) : Openings :=
  schedule.foldl step ⟨.bare, fun _ => .waiting⟩

/-- Some processes have looked at the version, and nobody has made a transaction. -/
def undecided (looked : List Nat) : Openings where
  tables := .bare
  process j := if j ∈ looked then .behind else .waiting

/-- The process `first` has made the tables; `looked` have looked before that, and `later` have taken a step
since. -/
def decided (now : Int) (first : Nat) (looked later : List Nat) : Openings where
  tables := .fresh now
  process j :=
    if j = first then .opened
    else if j ∈ looked then
      if j ∈ later then .refused (Tables.taken Tables.versionsName "version") else .behind
    else if j ∈ later then .opened
    else .waiting

variable {looked later : List Nat} {first k : Nat}

/-- One process takes its step, and the others stay as they are. -/
theorem step_eq {o o' : Openings} {now : Int}
    (hself : (o.process k).step now o.tables = (o'.process k, o'.tables))
    (hothers : ∀ j, j ≠ k → o'.process j = o.process j) : o.step (k, now) = o' := by
  unfold step
  rw [hself]
  show (⟨_, _⟩ : Openings) = ⟨_, _⟩
  congr 1
  funext j
  by_cases hj : j = k
  · subst hj
    exact Function.update_self ..
  · rw [Function.update_of_ne hj, hothers j hj]

/-- The step of a process that has not looked yet. -/
theorem step_undecided_of_notMem (hk : k ∉ looked) (now : Int) :
    (undecided looked).step (k, now) = undecided (looked ++ [k]) := by
  have hwaiting : (undecided looked).process k = .waiting := if_neg hk
  have hbehind : (undecided (looked ++ [k])).process k = .behind :=
    if_pos (List.mem_append_right _ (List.mem_singleton_self k))
  refine step_eq ?_ fun j hj => ?_
  · rw [hwaiting, hbehind]
    rfl
  · simp only [undecided, List.mem_append, List.mem_singleton, hj, or_false]

/-- The first process that takes its second step makes the tables. -/
theorem step_undecided_of_mem (hk : k ∈ looked) (now : Int) :
    (undecided looked).step (k, now) = decided now k looked [] := by
  have hbehind : (undecided looked).process k = .behind := if_pos hk
  have hopened : (decided now k looked []).process k = .opened := if_pos rfl
  refine step_eq ?_ fun j hj => ?_
  · rw [hbehind, hopened]
    rfl
  · simp only [decided, undecided, hj, List.not_mem_nil, if_false]

/-- What a process does next once the tables are made. -/
theorem step_of_decided (at' now : Int) (j : Nat) :
    ((decided at' first looked later).process j).step now (.fresh at') =
      ((decided at' first looked (later ++ [j])).process j, .fresh at') := by
  have hlater : j ∈ later ++ [j] := List.mem_append_right _ (List.mem_singleton_self j)
  simp only [decided, if_pos hlater]
  split
  · rfl
  · split
    · split
      · rfl
      · exact Opening.step_behind_fresh now at'
    · split
      · rfl
      · exact Opening.step_waiting_fresh now at'

theorem step_decided (at' now : Int) :
    (decided at' first looked later).step (k, now) = decided at' first looked (later ++ [k]) := by
  refine step_eq (step_of_decided at' now k) fun j hj => ?_
  simp only [decided, List.mem_append, List.mem_singleton, hj, or_false]

theorem run_snoc (schedule : List (Nat × Int)) (turn : Nat × Int) :
    run (schedule ++ [turn]) = (run schedule).step turn :=
  List.foldl_concat ..

/-- **After any schedule** either nobody has made a transaction, or the first to take a second step has made
the tables. -/
theorem run_cases (schedule : List (Nat × Int)) :
    ((schedule.map (·.1)).Nodup ∧ run schedule = undecided (schedule.map (·.1))) ∨
    ∃ before first now after, schedule = before ++ (first, now) :: after ∧
      (before.map (·.1)).Nodup ∧ first ∈ before.map (·.1) ∧
      run schedule = decided now first (before.map (·.1)) (after.map (·.1)) := by
  induction schedule using List.reverseRecOn with
  | nil => exact Or.inl ⟨List.nodup_nil, rfl⟩
  | append_singleton schedule turn ih =>
    obtain ⟨k, at'⟩ := turn
    rw [run_snoc]
    rcases ih with ⟨hnodup, hrun⟩ | ⟨before, first, now, after, rfl, hbefore, hfirst, hrun⟩
    · by_cases hk : k ∈ schedule.map (·.1)
      · refine Or.inr ⟨schedule, k, at', [], rfl, hnodup, hk, ?_⟩
        rw [hrun, step_undecided_of_mem hk]
        rfl
      · refine Or.inl ⟨?_, ?_⟩
        · rw [List.map_append]
          exact hnodup.append (List.nodup_singleton k) (List.disjoint_singleton.2 hk)
        · rw [hrun, step_undecided_of_notMem hk, List.map_append]
          rfl
    · refine Or.inr ⟨before, first, now, after ++ [(k, at')], ?_, hbefore, hfirst, ?_⟩
      · rw [List.append_assoc, List.cons_append]
      · rw [hrun, step_decided, List.map_append]
        rfl

/-- Who is refused once the tables are made. -/
theorem decided_refused_iff {at' : Int} {j : Nat} {e : Failure} :
    (decided at' first looked later).process j = .refused e ↔
      j ≠ first ∧ j ∈ looked ∧ j ∈ later ∧ e = Tables.taken Tables.versionsName "version" := by
  simp only [decided]
  by_cases hfirst : j = first <;> by_cases hlooked : j ∈ looked <;> by_cases hlater : j ∈ later <;>
    simp [hfirst, hlooked, hlater, eq_comm]

end Openings

/-- **Openings of a database without tables, in any interleaving**: as long as everybody has only looked at
the version nothing is there yet.  The first to take a second step makes all the tables and records
version 1, once and for all; of the others exactly those are refused that had looked before that and
take their second step later, as the row for the version is there already. -/
theorem openings_race (schedule : List (Nat × Int)) :
    ((schedule.map (·.1)).Nodup ∧ Openings.run schedule = .undecided (schedule.map (·.1))) ∨
    ∃ before first now after, schedule = before ++ (first, now) :: after ∧
      (before.map (·.1)).Nodup ∧ first ∈ before.map (·.1) ∧
      Openings.run schedule = .decided now first (before.map (·.1)) (after.map (·.1)) ∧
      (Openings.run schedule).tables.Complete ∧
      (Openings.run schedule).tables.versions = some [⟨1, .int now⟩] ∧
      ∀ j e, (Openings.run schedule).process j = .refused e ↔
        j ≠ first ∧ j ∈ before.map (·.1) ∧ j ∈ after.map (·.1) ∧
          e = Tables.taken Tables.versionsName "version" := by
  rcases Openings.run_cases schedule with hrun | ⟨before, first, now, after, hs, hbefore, hfirst, hrun⟩
  · exact Or.inl hrun
  · refine Or.inr ⟨before, first, now, after, hs, hbefore, hfirst, hrun, ?_⟩
    rw [hrun]
    exact ⟨(Tables.fresh_wellFormed now).complete, rfl, fun j e => Openings.decided_refused_iff⟩

/-- Two openings that both look before either makes the tables: the second is refused. -/
theorem openings_race_lost :
    let refusal := Tables.taken Tables.versionsName "version"
    (Openings.run [(0, 5), (1, 5), (0, 5), (1, 6)]).process 1 = .refused refusal ∧
      refusal.message = "Database error: Unique constraint violation: " ++
        "UNIQUE constraint failed: schema_version.version (1555)" ∧
      ¬ ∀ schedule j e, (Openings.run schedule).process j ≠ .refused e := by
  intro refusal
  have hlost : (Openings.run [(0, 5), (1, 5), (0, 5), (1, 6)]).process 1 = .refused refusal := by rfl
  exact ⟨hlost, by decide, fun hnone => hnone _ 1 refusal hlost⟩

/-- One after the other, both succeed. -/
example : [0, 1].map (Openings.run [(0, 5), (0, 5), (1, 6), (1, 6)]).process = [.opened, .opened] := by
  rfl

end Casefile
