import Casefile.Failure

/-!
# Answers of parts that may fail

* `Reply` — how a call to a part supplied from outside ends: with a value, with a failure, or by
  breaking down with a text.
-/

set_option autoImplicit false

namespace Casefile

/-- How a call to a part supplied from outside ends. -/
inductive Reply (α : Type) where
  | ok (a : α)
  | failed (e : Failure)
  | panicked (text : String)
  deriving DecidableEq, Repr

/-- The answer of a part that never breaks down. -/
def Reply.ofExcept {α : Type} : Except Failure α → Reply α
  | .ok a => .ok a
  | .error e => .failed e

@[simp] theorem Reply.ofExcept_ok {α : Type} (a : α) : Reply.ofExcept (.ok a) = .ok a := rfl

@[simp] theorem Reply.ofExcept_error {α : Type} (e : Failure) :
    (Reply.ofExcept (.error e) : Reply α) = .failed e := rfl

end Casefile
