import PodMachines.Image.Record
import PodMachines.Sandbox
import PodMachines.Status

/-!
# Messages and sandboxes

What the service's messages mean: the sandbox that a configuration asks for, the messages that report a sandbox
or an image, and the filter that a message describes.
-/

namespace PodMachines
open Message

/-- The annotation that names the image a pod's machine boots. -/
def bootImageAnnotation : String := "vmpod.io/boot-image"

/-- The image that annotations name, unless its name is empty. -/
def namedImage (annotations : Texts) : Option String :=
  (annotations.find? bootImageAnnotation).filter fun image => !image.isEmpty

/-- The sandbox that a configuration asks for. -/
def Sandbox.Spec.ofConfig (c : PodConfig) (runtimeHandler : String) : Sandbox.Spec :=
  let m := c.metadata.getD {}
  ⟨m.name, m.nspace, m.uid, m.attempt, c.hostname, c.logDirectory, runtimeHandler, c.labels, c.annotations,
    namedImage c.annotations⟩

/-- Who a sandbox is for. -/
def Sandbox.Spec.metadata (s : Sandbox.Spec) : PodMetadata :=
  ⟨s.name, s.uid, s.nspace, s.attempt⟩

/-- The number of a state. -/
def Sandbox.State.number : Sandbox.State → Int
  | .ready => 0
  | .notReady => 1

/-- The state of a number. -/
def Sandbox.State.ofNumber? (n : Int) : Option Sandbox.State :=
  if n = 0 then some .ready else if n = 1 then some .notReady else none

/-- The message that reports a sandbox in full. -/
def Sandbox.Status.toMessage (s : Sandbox.Status) : PodStatus where
  id := s.id
  metadata := some s.spec.metadata
  state := s.state.number
  createdAt := s.createdAt
  network := some { ip := s.address.toText }
  labels := s.spec.labels
  annotations := s.spec.annotations
  runtimeHandler := s.spec.runtimeHandler

/-- The message that reports a sandbox in a list. -/
def Sandbox.Status.toItem (s : Sandbox.Status) : Pod where
  id := s.id
  metadata := some s.spec.metadata
  state := s.state.number
  createdAt := s.createdAt
  labels := s.spec.labels
  annotations := s.spec.annotations
  runtimeHandler := s.spec.runtimeHandler

/-- The filter that a message describes. What is empty selects every sandbox; a number that is no state is
    refused. -/
def Sandbox.Filter.ofMessage : Option PodFilter → Except PodMachines.Status Sandbox.Filter
  | none => .ok .everything
  | some f =>
    let id := if f.id.isEmpty then none else some f.id
    match f.state with
    | none => .ok ⟨id, none, f.labelSelector⟩
    | some n =>
      match Sandbox.State.ofNumber? n with
      | some state => .ok ⟨id, some state, f.labelSelector⟩
      | none => .error ⟨.invalidArgument, "unknown pod sandbox state " ++ toString n⟩

/-- The message that reports an image, under the reference that was asked for, else under its first tag or its
    id. -/
def Image.Record.toMessage (reference : Option String) (r : Image.Record) : Message.Image where
  id := r.id
  repoTags := r.tags
  repoDigests := r.digests
  size := r.size
  username := ""
  spec := some { image := reference.getD (r.tags.head?.getD r.id) }
  pinned := false

end PodMachines
