import PodMachines.Service.Containers
import PodMachines.Service.Images

/-!
# The service

How each request to the service is served.
-/

namespace PodMachines.Service
open Message

/-- What the service says of itself. -/
def version : Version :=
  ⟨"0.1.0", "vmpod", "0.1.0", "v1"⟩

/-- Makes a sandbox. -/
def create (spec : Sandbox.Spec) : Course (Except Failure String) := do
  let suffix ← Course.ask .suffix
  Course.ask (.pods (.create spec suffix))

/-- The sandbox with its image's name as the provider of images translates it. -/
def translated (images : Option Images) (spec : Sandbox.Spec) : Sandbox.Spec :=
  match images with
  | some images => { spec with bootImage := spec.bootImage.map images.translate }
  | none => spec

/-- What a verbose status tells besides. -/
def details (backend : String) (verbose : Bool) (s : Sandbox.Status) : Texts :=
  if verbose then (Table.empty.insert "backend" backend).insert "vmState" s.machine.toText else .empty

/-- Lets the pods boot images if they can boot those of the provider. -/
def integrate (images : Images) (catalog : Option String) : Course Bool := do
  if images.integrates catalog then
    Course.ask .bootImages
    pure true
  else pure false

/-- Serves a request. `backend` is the name of the pods' backend. -/
def serve (backend : String) : (request : Request) → Course (Except Status request.Response)
  | .version => pure (.ok version)
  | .runPod none _ => pure (.error ⟨.invalidArgument, "sandbox config required"⟩)
  | .runPod (some config) runtimeHandler => do
    let images ← Course.ask .images
    Course.answered (← create (translated images (.ofConfig config runtimeHandler)))
  | .stopPod id => do Course.answered (← Course.ask (.pods (.stop id)))
  | .removePod id => do Course.answered (← Course.ask (.pods (.remove id)))
  | .podStatus id verbose => do
    match ← Course.ask (.pods (.status id)) with
    | .ok s => pure (.ok (s.toMessage, details backend verbose s))
    | .error f => pure (.error f.status)
  | .listPods filter =>
    match Sandbox.Filter.ofMessage filter with
    | .error status => pure (.error status)
    | .ok filter => do
      let statuses ← Course.ask (.pods (.list filter))
      pure (.ok (statuses.map Sandbox.Status.toItem))
  | .containers request => serveContainers request
  | .exec _ => pure (.error (Failure.unimplemented "Exec").status)
  | .listImages image => do
    match ← Course.ask .images with
    | none => pure (.error noImages)
    | some images => pure (.ok (listImages images image))
  | .imageStatus image => withReference image fun images reference =>
    pure (.ok ((images.status reference).map (Image.Record.toMessage (some reference))))
  | .pullImage image => withReference image fun images reference => do
    Course.answered (← pull images reference)
  | .removeImage image => withReference image fun _ reference => do
    Course.ask (.forget reference)
    pure (.ok ())

end PodMachines.Service
