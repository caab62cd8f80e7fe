import Casefile.Store

/-!
# Case databases that fail on demand

* `Call` — the calls that can be made to fail.
* `Fault` — one of them, by its number among the calls of its kind.
* `Store.withFaults` — a database in which the given calls fail before they reach it.

A transaction whose commit or rollback fails in this way is dropped.
-/

set_option autoImplicit false

namespace Casefile

/-- The calls that can be made to fail. -/
inductive Call where
  | begin
  | addSource
  | addFile
  | commit
  | rollback
  | logicalSources
  | imageSources
  deriving DecidableEq, Repr

/-- How a call is made to fail. -/
inductive Breakdown where
  | failure (e : Failure)
  | panic (text : String)
  deriving DecidableEq, Repr

/-- The answer of a call that is made to fail. -/
def Breakdown.reply {α : Type} : Breakdown → Reply α
  | .failure e => .failed e
  | .panic text => .panicked text

/-- A call that is to fail: the one of the given number among those of its kind, counted from 1. -/
structure Fault where
  call : Call
  number : Nat
  breakdown : Breakdown
  deriving DecidableEq, Repr

/-- A database with the calls that were made to it, the last first. -/
structure Metered (σ : Type) where
  inner : σ
  calls : List Call
  deriving Repr

namespace Metered

variable {σ : Type}

/-- A database that no call has been made to. -/
def start (s : σ) : Metered σ :=
  ⟨s, []⟩

/-- The database with one more call made. -/
def count (m : Metered σ) (c : Call) : Metered σ :=
  { m with calls := c :: m.calls }

/-- How the call made last is to fail, if it is. -/
def breakdown? (m : Metered σ) (faults : List Fault) (c : Call) : Option Breakdown :=
  (faults.find? fun f => f.call = c ∧ f.number = m.calls.count c).map (·.breakdown)

end Metered

namespace Store

variable {σ τ : Type}

/-- The database with some of its calls made to fail. -/
def withFaults (faults : List Fault) (db : Store σ τ) : Store (Metered σ) τ where
  begin m :=
    let m := m.count .begin
    match m.breakdown? faults .begin with
    | some b => (b.reply, m)
    | none =>
      let (answer, s) := db.begin m.inner
      (answer, { m with inner := s })
  addSource source tx m :=
    let m := m.count .addSource
    match m.breakdown? faults .addSource with
    | some b => (b.reply, tx, m)
    | none =>
      let (answer, tx, s) := db.addSource source tx m.inner
      (answer, tx, { m with inner := s })
  addFile file tx m :=
    let m := m.count .addFile
    match m.breakdown? faults .addFile with
    | some b => (b.reply, tx, m)
    | none =>
      let (answer, tx, s) := db.addFile file tx m.inner
      (answer, tx, { m with inner := s })
  addImage image tx m :=
    let (answer, tx, s) := db.addImage image tx m.inner
    (answer, tx, { m with inner := s })
  commit tx m :=
    let m := m.count .commit
    match m.breakdown? faults .commit with
    | some b => (b.reply, { m with inner := db.drop tx m.inner })
    | none =>
      let (answer, s) := db.commit tx m.inner
      (answer, { m with inner := s })
  rollback tx m :=
    let m := m.count .rollback
    match m.breakdown? faults .rollback with
    | some b => (b.reply, { m with inner := db.drop tx m.inner })
    | none =>
      let (answer, s) := db.rollback tx m.inner
      (answer, { m with inner := s })
  drop tx m := { m with inner := db.drop tx m.inner }
  logicalSources m :=
    let m := m.count .logicalSources
    match m.breakdown? faults .logicalSources with
    | some b => (b.reply, m)
    | none =>
      let (answer, s) := db.logicalSources m.inner
      (answer, { m with inner := s })
  imageSources m :=
    let m := m.count .imageSources
    match m.breakdown? faults .imageSources with
    | some b => (b.reply, m)
    | none =>
      let (answer, s) := db.imageSources m.inner
      (answer, { m with inner := s })

end Store

end Casefile
