import PodMachines.Table

/-!
# Messages

What clients of the service and agents send each other about pods, containers and images. A text that is not
given is empty, a number zero, and a part that is not given absent.
-/

namespace PodMachines.Message

/-- Labels, annotations and other texts by name. -/
abbrev Texts := Table String

/-! ### Pods -/

structure PodMetadata where
  name : String := ""
  uid : String := ""
  nspace : String := ""
  attempt : Nat := 0

/-- What a client asks of a new pod. -/
structure PodConfig where
  metadata : Option PodMetadata := none
  hostname : String := ""
  logDirectory : String := ""
  labels : Texts := .empty
  annotations : Texts := .empty

structure PodNetwork where
  ip : String := ""
  additionalIps : List String := []

/-- The state of a pod: 0 is ready and 1 is not ready. -/
structure PodStatus where
  id : String
  metadata : Option PodMetadata
  state : Int
  createdAt : Int
  network : Option PodNetwork
  labels : Texts
  annotations : Texts
  runtimeHandler : String

/-- A pod in a list. -/
structure Pod where
  id : String
  metadata : Option PodMetadata
  state : Int
  createdAt : Int
  labels : Texts
  annotations : Texts
  runtimeHandler : String

/-- Which pods a client asks for. -/
structure PodFilter where
  id : String := ""
  state : Option Int := none
  labelSelector : Texts := .empty

/-! ### Images -/

structure ImageSpec where
  image : String := ""
  annotations : Texts := .empty

structure Image where
  id : String
  repoTags : List String
  repoDigests : List String
  size : UInt64
  username : String
  spec : Option ImageSpec
  pinned : Bool

/-! ### Containers -/

structure ContainerMetadata where
  name : String := ""
  attempt : Nat := 0

structure KeyValue where
  key : String := ""
  value : String := ""

/-- What a client asks of a new container. -/
structure ContainerConfig where
  metadata : Option ContainerMetadata := none
  image : Option ImageSpec := none
  command : List String := []
  args : List String := []
  workingDir : String := ""
  envs : List KeyValue := []
  labels : Texts := .empty
  annotations : Texts := .empty
  logPath : String := ""
  stdin : Bool := false
  stdinOnce : Bool := false
  tty : Bool := false

/-- A container in a list. -/
structure Container where
  id : String := ""
  podSandboxId : String := ""
  metadata : Option ContainerMetadata := none
  image : Option ImageSpec := none
  imageRef : String := ""
  state : Int := 0
  createdAt : Int := 0
  labels : Texts := .empty
  annotations : Texts := .empty

/-- Which containers a client asks for. -/
structure ContainerFilter where
  id : String := ""
  state : Option Int := none
  podSandboxId : String := ""
  labelSelector : Texts := .empty

structure ContainerStatus where
  id : String := ""
  metadata : Option ContainerMetadata := none
  state : Int := 0
  createdAt : Int := 0
  startedAt : Int := 0
  finishedAt : Int := 0
  exitCode : Int := 0
  image : Option ImageSpec := none
  imageRef : String := ""
  reason : String := ""
  message : String := ""
  labels : Texts := .empty
  annotations : Texts := .empty
  logPath : String := ""

end PodMachines.Message
