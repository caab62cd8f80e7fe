import Casefile.Failure

/-!
# The registry of processors

* `Registry` — processors under the type of data source they take in, in the order in which they
  were registered; a type is registered once.
-/

set_option autoImplicit false

namespace Casefile

/-- Processors of type `ρ` under the type of data source they take in. -/
structure Registry (ρ : Type) where
  entries : List (String × ρ)
  deriving Repr

namespace Registry

variable {ρ : Type}

def empty : Registry ρ := ⟨[]⟩

/-- The registered types in order. -/
def types (r : Registry ρ) : List String :=
  r.entries.map (·.1)

/-- The processor of a type. -/
def find? (r : Registry ρ) (type : String) : Option ρ :=
  r.entries.lookup type

/-- The registry with a processor for a type that has none. -/
def register (r : Registry ρ) (type : String) (processor : ρ) : Except Failure (Registry ρ) :=
  if type ∈ r.types then
    .error (.conflict ("Data source processor already registered: " ++ type))
  else .ok ⟨r.entries ++ [(type, processor)]⟩

end Registry

end Casefile
