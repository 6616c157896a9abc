import PodMachines.Agent.Dial
import PodMachines.Pods.System
import PodMachines.Service
import PodMachines.Session.World

/-!
# Sessions

A whole service in a simulated outside: the pods and their backend, the connector, and the images.
-/

namespace PodMachines

/-- A service in a simulated outside. -/
structure Session where
  world : Session.World
  pods : Pods.System
  backend : Backend
  connector : Agent.Connector
  images : Option Images
  /-- How many machines were named. -/
  named : Nat
  /-- The connection that is held for direct requests. -/
  held : Option Connection
  /-- The sandboxes that were made, in order. -/
  created : List String
  /-- What inquiries after containers have come to, by their numbers. -/
  inquiries : List (Option (Except Failure (List Message.Container)))

namespace Session

/-- The time in milliseconds. -/
def now (s : Session) : Nat :=
  s.pods.store.now

/-- What others do to answer the pods. -/
def workOf (s : Session) : (request : Pods.Request) → Work request.Answer
  | .backend request => s.backend.serve request
  | .connect address => s.connector.connect address
  | .close connection => Work.ask (.hangUp connection)

/-- With a call on the pods started; its number. -/
def startCall (s : Session) (call : Pods.Call) : Nat × Session :=
  (s.pods.calls.length, { s with pods := s.pods.start call })

/-- With images of the provider's catalog kept as they were found. -/
def keep (s : Session) (reference : String) (found : Except Failure (List Image.Record)) :
    Except Failure String × Session :=
  match s.images with
  | some images =>
    let (result, images) := images.pulled reference found
    (result, { s with images := some images })
  | none => (.error (.unimplemented ""), s)

/-- What is answered on the way of a request where nothing has to be waited for. -/
def reply (s : Session) : (act : Service.Act) → Option (act.Reply × Session)
  | .pods _ | .find _ | .inquire .. => none
  | .suffix => some (Machine.spread (s.named + 1), { s with named := s.named + 1 })
  | .bootImages => some ((), { s with pods := s.pods.enableImageBoot })
  | .forward connection request =>
    let (answer, world) := s.world.forward connection request
    some (answer, { s with world := world })
  | .await inquiries => (inquiries.mapM fun k => s.inquiries[k]?.join).map fun results => (results, s)
  | .close connection =>
    let (_, world) := s.world.reply s.now .usual (.hangUp connection)
    some ((), { s with world := world })
  | .images => some (s.images, s)
  | .keep reference found => some (s.keep reference found)
  | .forget reference => some ((), { s with images := s.images.map fun images => images.forget reference })

/-- What the provider of images does to find those of a reference. -/
def findWork (s : Session) (reference : Image.Reference) : Work (Except Failure (List Image.Record)) :=
  match s.images with
  | some images => images.find reference
  | none => pure (.ok [])

end Session
end PodMachines
