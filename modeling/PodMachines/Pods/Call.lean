import PodMachines.Outside
import PodMachines.Sandbox

/-!
# Calls on the pods

What may be asked of the pods, how each call ends, and what the pods in turn ask of the backend, of the
connector and of agents.
-/

namespace PodMachines.Pods

/-- A call on the pods. -/
inductive Call
  /-- To make a sandbox; the number tells its machine from others of its pod. -/
  | create (spec : Sandbox.Spec) (suffix : UInt32)
  /-- To mark a sandbox as not ready. -/
  | stop (id : String)
  /-- To destroy a sandbox's machine and forget the sandbox. -/
  | remove (id : String)
  /-- For the status of a sandbox. -/
  | status (id : String)
  /-- For the statuses of the sandboxes that a filter selects. -/
  | list (filter : Sandbox.Filter)
  /-- For the connection to a sandbox's agent. -/
  | agent (id : String)
  /-- For the address of a sandbox's machine. -/
  | address (id : String)
  /-- For the ids of all sandboxes. -/
  | ids
  deriving DecidableEq

/-- How a call ends. -/
abbrev Call.Result : Call → Type
  | .create .. => Except Failure String
  | .stop _ | .remove _ => Except Failure Unit
  | .status _ => Except Failure Sandbox.Status
  | .list _ => List Sandbox.Status
  | .agent _ => Except Failure Connection
  | .address _ => Except Failure Address
  | .ids => List String

/-- What the pods ask of others. -/
inductive Request
  | backend (request : Backend.Request)
  /-- A connection to the agent at an address. -/
  | connect (address : Address)
  /-- That a connection be closed. -/
  | close (connection : Connection)
  deriving DecidableEq, Repr

/-- What the others answer. -/
abbrev Request.Answer : Request → Type
  | .backend request => request.Answer
  | .connect _ => Except Failure Connection
  | .close _ => Unit

end PodMachines.Pods
