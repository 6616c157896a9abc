import PodMachines.Address
import PodMachines.Machine.State
import PodMachines.Message

/-!
# Sandboxes

What a sandbox is asked to be, what is reported of it, and which sandboxes a filter selects.
-/

namespace PodMachines.Sandbox
open Message (Texts)

/-- Whether a sandbox can be used. -/
inductive State
  | ready
  | notReady
  deriving DecidableEq, Repr

/-- What the caller says of a new sandbox. -/
structure Spec where
  name : String
  nspace : String
  uid : String
  attempt : Nat
  hostname : String
  logDirectory : String
  runtimeHandler : String
  labels : Texts
  annotations : Texts
  /-- The image that its machine boots where images of catalogs may be booted. -/
  bootImage : Option String
  deriving DecidableEq

/-- What is reported of a sandbox at one moment. -/
structure Status where
  id : String
  spec : Spec
  createdAt : Int
  address : Address
  state : State
  machine : Machine.State
  deriving DecidableEq

/-- Which sandboxes are asked for. -/
structure Filter where
  id : Option String
  state : Option State
  /-- Labels that a sandbox must carry with equal values. -/
  labels : Texts
  deriving DecidableEq

/-- Every sandbox. -/
def Filter.everything : Filter :=
  ⟨none, none, .empty⟩

/-- Whether a sandbox is asked for. -/
def Filter.selects (f : Filter) (s : Status) : Bool :=
  f.id.all (· = s.id) && f.state.all (· = s.state) && f.labels.within s.spec.labels

end PodMachines.Sandbox
