import PodMachines.Address
import PodMachines.Agent.Request

/-!
# Simulated agents

An agent that answers from memory, keeps what it was asked, and can be told to refuse everything.
-/

namespace PodMachines.Agent

/-- An agent in memory. -/
structure Simulated where
  address : Address
  /-- What it was asked, in order. -/
  requests : List Request
  /-- What it lists. -/
  containers : List Message.Container
  /-- The status with which it refuses everything. -/
  refusal : Option Status
  /-- How many containers it has made. -/
  made : Nat
  /-- How often it was closed. -/
  closes : Nat

namespace Simulated

/-- A new agent at an address. -/
def new (address : Address) : Simulated :=
  ⟨address, [], [], none, 0, 0⟩

/-- What it answers when it does not refuse. -/
def reply (a : Simulated) : (request : Request) → request.Answer × Simulated
  | .createContainer id _ _ => (id ++ ":c" ++ toString (a.made + 1), { a with made := a.made + 1 })
  | .startContainer _ => ((), a)
  | .stopContainer .. => ((), a)
  | .removeContainer _ => ((), a)
  | .listContainers _ => (a.containers, a)
  | .containerStatus id _ => ((some { id := id }, .empty), a)

/-- What it answers, and the agent after it was asked. -/
def serve (a : Simulated) (request : Request) : Except Failure request.Answer × Simulated :=
  let a := { a with requests := a.requests ++ [request] }
  match a.refusal with
  | some status => (.error (.agent status), a)
  | none =>
    let (answer, a) := a.reply request
    (.ok answer, a)

end Simulated
end PodMachines.Agent
