import PodMachines.Address
import PodMachines.Failure
import PodMachines.Machine.Name
import PodMachines.Machine.State

/-!
# What is asked of a backend

A backend makes machines, destroys them, and tells their addresses and their state. Any request may fail.
-/

namespace PodMachines.Backend

/-- What a backend is asked. -/
inductive Request
  /-- To make and start a machine. -/
  | provision (spec : Machine.Spec)
  /-- To destroy a machine. -/
  | destroy (machine : Machine.Handle)
  /-- For the addresses of a machine, the preferred one first. -/
  | addresses (machine : Machine.Handle)
  /-- For the state of a machine. -/
  | state (machine : Machine.Handle)
  deriving DecidableEq, Repr

/-- What a request is answered with. -/
abbrev Request.Answer : Request → Type
  | .provision _ => Except Failure Machine.Handle
  | .destroy _ => Except Failure Unit
  | .addresses _ => Except Failure (List Address)
  | .state _ => Except Failure Machine.State

end PodMachines.Backend
