import PodMachines.Failure
import PodMachines.Message

/-!
# What is asked of an agent

The agent in a sandbox's machine handles its containers. A request reaches it as the client sent it, and so
does its answer the client.
-/

namespace PodMachines.Agent
open Message

/-- A request about containers. -/
inductive Request
  | createContainer (podSandboxId : String) (config : Option ContainerConfig) (sandboxConfig : Option PodConfig)
  | startContainer (containerId : String)
  | stopContainer (containerId : String) (timeout : Int)
  | removeContainer (containerId : String)
  | listContainers (filter : Option ContainerFilter)
  | containerStatus (containerId : String) (verbose : Bool)

/-- The answer to a request: the id of a new container, containers, or the status of one. -/
abbrev Request.Answer : Request → Type
  | .createContainer .. => String
  | .startContainer _ | .stopContainer .. | .removeContainer _ => Unit
  | .listContainers _ => List Container
  | .containerStatus .. => Option ContainerStatus × Texts

/-- The name of the method that a request calls. -/
def Request.method : Request → String
  | .createContainer .. => "create_container"
  | .startContainer _ => "start_container"
  | .stopContainer .. => "stop_container"
  | .removeContainer _ => "remove_container"
  | .listContainers _ => "list_containers"
  | .containerStatus .. => "container_status"

/-- The id that a request names: of a sandbox for requests about many or new containers. -/
def Request.target : Request → String
  | .createContainer id _ _ | .startContainer id | .stopContainer id _ | .removeContainer id
  | .containerStatus id _ => id
  | .listContainers filter => (filter.map ContainerFilter.podSandboxId).getD ""

end PodMachines.Agent
