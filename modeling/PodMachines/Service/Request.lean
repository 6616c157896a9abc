import PodMachines.Agent.Request
import PodMachines.Images
import PodMachines.Pods.Call
import PodMachines.Service.Mapping

/-!
# Requests to the service

What clients ask of the service, what it answers, and what the service asks of the pods, of agents and of the
images on the way.
-/

namespace PodMachines.Service
open Message

/-- What the service says of itself. -/
structure Version where
  version : String
  runtimeName : String
  runtimeVersion : String
  runtimeApiVersion : String
  deriving DecidableEq, Repr

/-- A request to the service. -/
inductive Request
  | version
  | runPod (config : Option PodConfig) (runtimeHandler : String)
  | stopPod (id : String)
  | removePod (id : String)
  | podStatus (id : String) (verbose : Bool)
  | listPods (filter : Option PodFilter)
  /-- About containers, for an agent. -/
  | containers (request : Agent.Request)
  | exec (containerId : String)
  | listImages (image : Option ImageSpec)
  | imageStatus (image : Option ImageSpec)
  | pullImage (image : Option ImageSpec)
  | removeImage (image : Option ImageSpec)

/-- What a request is answered with: ids of what was made, statuses with further information by name, or
    lists. -/
abbrev Request.Response : Request → Type
  | .version => Version
  | .runPod .. | .pullImage _ => String
  | .stopPod _ | .removePod _ | .exec _ | .removeImage _ => Unit
  | .podStatus .. => PodStatus × Texts
  | .listPods _ => List Pod
  | .containers request => request.Answer
  | .listImages _ => List Message.Image
  | .imageStatus _ => Option Message.Image

/-- What the service asks on the way. -/
inductive Act
  /-- A call on the pods. -/
  | pods (call : Pods.Call)
  /-- A number that tells a new machine from others. -/
  | suffix
  /-- That the pods boot images of their catalog from now on. -/
  | bootImages
  /-- That an agent serve a request. -/
  | forward (connection : Connection) (request : Agent.Request)
  /-- That the agents of sandboxes be looked up and asked for containers, all at the same time; the numbers of
      these inquiries. -/
  | inquire (filter : Option ContainerFilter) (ids : List String)
  /-- What inquiries come to, when all of them have come to their end. -/
  | await (inquiries : List Nat)
  /-- That a connection be closed. -/
  | close (connection : Connection)
  /-- The provider of images as it is now. -/
  | images
  /-- What the catalog of images has of a reference. -/
  | find (reference : Image.Reference)
  /-- That what was found be kept under the text of its reference. -/
  | keep (reference : String) (found : Except Failure (List Image.Record))
  /-- That an image be forgotten. -/
  | forget (reference : String)

/-- What is answered on the way. -/
abbrev Act.Reply : Act → Type
  | .pods call => call.Result
  | .suffix => UInt32
  | .bootImages => Unit
  | .forward _ request => Except Failure request.Answer
  | .inquire .. => List Nat
  | .await _ => List (Except Failure (List Container))
  | .close _ => Unit
  | .images => Option Images
  | .find _ => Except Failure (List Image.Record)
  | .keep .. => Except Failure String
  | .forget _ => Unit

/-- The course of a request. -/
abbrev Course := Program Act Act.Reply

/-- Asks on the way. -/
def Course.ask (act : Act) : Course act.Reply :=
  Program.query act

/-- A course that ends with what a call comes to, a failure as the status of a request. -/
def Course.answered {α : Type} (result : Except Failure α) : Course (Except Status α) :=
  match result with
  | .ok a => pure (.ok a)
  | .error f => pure (.error f.status)

end PodMachines.Service
