import PodMachines.Service.Request
import PodMachines.Text.Split

/-!
# Requests about containers

A request about a container goes to the agent of the sandbox that the container's id begins with, unchanged, and
its answer comes back unchanged. A list that names neither a sandbox nor a container asks every agent, all at the
same time, and skips those that fail.
-/

namespace PodMachines.Service

/-- The id of the sandbox of a container: what stands before the first colon. -/
def sandboxOf (containerId : String) : String :=
  String.ofList (Text.beforeFirst ':' containerId.toList)

/-- The connection to a sandbox's agent, for a request that names the sandbox. -/
def agentOf (id : String) : Course (Except Failure Connection) := do
  match ← Course.ask (.pods (.agent id)) with
  | .error (.notFound _ _) => pure (.error (.sandboxMissing id))
  | result => pure result

/-- The answer of a sandbox's agent. -/
def forward (id : String) (request : Agent.Request) : Course (Except Failure request.Answer) := do
  match ← agentOf id with
  | .error f => pure (.error f)
  | .ok connection => Course.ask (.forward connection request)

/-- The sandbox whose containers a list asks for; none if it asks for those of all. -/
def listedSandbox (filter : Option Message.ContainerFilter) : Option String :=
  match filter with
  | none => none
  | some f =>
    if !f.podSandboxId.isEmpty then some f.podSandboxId
    else if !f.id.isEmpty then some (sandboxOf f.id)
    else none

/-- The sandbox that a request names: a new container's, or that of the container. -/
def namedSandbox : Agent.Request → String
  | .createContainer id _ _ => id
  | .listContainers filter => (listedSandbox filter).getD ""
  | .startContainer id | .stopContainer id _ | .removeContainer id | .containerStatus id _ => sandboxOf id

/-- An inquiry after the containers of one sandbox. -/
def inquiry (filter : Option Message.ContainerFilter) (id : String) :
    Course (Except Failure (List Message.Container)) :=
  forward id (.listContainers filter)

/-- The containers in an agent's answer, none if it fails. -/
def listed : Except Failure (List Message.Container) → List Message.Container
  | .ok containers => containers
  | .error _ => []

/-- The containers of the sandboxes, in their order, without those of agents that fail. -/
def listAll (filter : Option Message.ContainerFilter) (ids : List String) : Course (List Message.Container) := do
  let inquiries ← Course.ask (.inquire filter ids)
  let results ← Course.ask (.await inquiries)
  pure (results.flatMap listed)

/-- Serves a request about containers. -/
def serveContainers : (request : Agent.Request) → Course (Except Status request.Answer)
  | .listContainers filter =>
    match listedSandbox filter with
    | some id => do Course.answered (← forward id (.listContainers filter))
    | none => do
      let ids ← Course.ask (.pods .ids)
      let containers ← listAll filter ids
      pure (.ok containers)
  | request => do Course.answered (← forward (namedSandbox request) request)

end PodMachines.Service
