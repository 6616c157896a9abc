import PodMachines.Providers
import PodMachines.Session.Step

/-!
# Opening a session

A session is opened with pods of the simulated cloud or of a provider by name, and with images of a provider by
name, of the simulated catalog, or under a prefix.
-/

namespace PodMachines.Session

/-- Which images a session has. -/
inductive ImagesChoice
  | absent
  | provider (name : String)
  | prefixing (start : String)
  | catalog (name : String)
  deriving DecidableEq, Repr

/-- How a session is opened. -/
structure Setup where
  files : Files
  /-- Where the configurations are. -/
  directory : String
  script : Tool.Script
  listings : List Listing
  /-- The provider of the pods; none for the simulated cloud. -/
  pods : Option String
  /-- The catalog whose images the simulated cloud can boot. -/
  catalog : Option String
  images : ImagesChoice
  /-- Whether the images are offered to the pods. -/
  integrate : Bool
  connector : Agent.Connector
  /-- The agents that there are from the start. -/
  agents : List Agent.Simulated

/-- An opened session, and whether the pods can boot its images. -/
structure Opened where
  session : Session
  integrated : Option Bool

/-- When sessions start, in milliseconds. -/
def startTime : Nat := 1000

namespace Setup
variable [Doc.Parsers]

/-- The backend of the pods. -/
def startPods (s : Setup) : Work (Except Failure Backend) :=
  match s.pods with
  | some name => Providers.builtin.startPods s.files s.directory name
  | none => pure (.ok (Backend.simulated s.catalog))

/-- The images. -/
def startImages (s : Setup) : Work (Except Failure (Option Images)) :=
  match s.images with
  | .absent => pure (.ok none)
  | .prefixing start => pure (.ok (some (.prefixing start)))
  | .catalog name => pure (.ok (some (.ofCatalog (Catalog.simulated name))))
  | .provider name => do
    match ← Providers.builtin.startImages s.files s.directory name with
    | .error f => pure (.error f)
    | .ok catalog => pure (.ok (some (.ofCatalog catalog)))

/-- Pods and images, one after the other. -/
def startBoth (s : Setup) : Work (Except Failure (Backend × Option Images)) := do
  match ← s.startPods with
  | .error f => pure (.error f)
  | .ok backend =>
    match ← s.startImages with
    | .error f => pure (.error f)
    | .ok images => pure (.ok (backend, images))

/-- A session of a backend and images, which are not offered to the pods yet. -/
def sessionOf (s : Setup) (backend : Backend) (images : Option Images) (world : World) (now : Nat) : Session where
  world := world
  pods := .new backend.name backend.catalog now
  backend := backend
  connector := s.connector
  images := images
  named := 0
  held := none
  created := []
  inquiries := []

/-- With the images offered to the pods. -/
def offered (session : Session) : Opened :=
  match session.images with
  | none => ⟨session, none⟩
  | some images =>
    let fits := images.integrates session.pods.catalog
    ⟨if fits then { session with pods := session.pods.enableImageBoot } else session, some fits⟩

/-- The session, unless something cannot be started; and what tools were called. -/
def open_ (s : Setup) : Except Failure Opened × List Command :=
  let world := { World.new s.script s.listings with agents := s.agents }
  let (outcome, world, now) := s.startBoth.run World.answerAlone (world, startTime)
  match outcome with
  | .crashed why => (.error (.io why), world.script.calls)
  | .done (.error f) => (.error f, world.script.calls)
  | .done (.ok (backend, images)) =>
    let session := s.sessionOf backend images world now
    (.ok (if s.integrate then offered session else ⟨session, none⟩), world.script.calls)

end Setup
end PodMachines.Session
