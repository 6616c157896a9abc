import PodMachines.Failure
import PodMachines.Table

/-!
# Registries

Things by name. A name is registered once, and what is registered first stays.
-/

namespace PodMachines

/-- Things by name. -/
structure Registry (α : Type) where
  /-- What kind of thing they provide. -/
  kind : String
  entries : Table α

namespace Registry
variable {α : Type}

/-- Nothing registered. -/
def empty (kind : String) : Registry α :=
  ⟨kind, .empty⟩

/-- With a thing under a name that is not taken. -/
def register (r : Registry α) (name : String) (thing : α) : Except Failure (Registry α) :=
  if r.entries.contains name then .error (.alreadyRegistered (r.kind ++ " provider '" ++ name ++ "'"))
  else .ok { r with entries := r.entries.insert name thing }

/-- The names, in ascending order. -/
def names (r : Registry α) : List String :=
  r.entries.keys.mergeSort fun a b => decide (a ≤ b)

/-- The thing under a name. -/
def get (r : Registry α) (name : String) : Except Failure α :=
  match r.entries.find? name with
  | some thing => .ok thing
  | none => .error (.unknownProvider name (", ".intercalate r.names))

end Registry
end PodMachines
