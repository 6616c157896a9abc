import PodMachines.Backend
import PodMachines.Config
import PodMachines.Tool

/-!
# Machines and images of GCE

GCE is driven through the tool `gcloud`. A machine is created in one step and is known by its name. Its internal
addresses come before its external ones.
-/

namespace PodMachines.Backend.Gce
open Doc Machine

/-- The name of the backend and of its catalog. -/
def name : String := "gcp"

/-- A command on an instance of the configured project and zone. -/
def onInstance (c : Config.Gce) (verb id : String) (more : List String) : Command :=
  ⟨"gcloud", ["compute", "instances", verb, id, "--project=" ++ c.project, "--zone=" ++ c.zone] ++ more⟩

/-! ### What the tool prints -/

/-- A network interface: its internal address, and its external ones. -/
structure Interface where
  internal : Option String
  external : List (Option String)
  deriving DecidableEq, Repr

/-- An instance as it is described. -/
structure Instance where
  name : String
  status : String
  interfaces : List Interface
  deriving DecidableEq, Repr

/-- A network interface. -/
def Interface.decode : Decode Interface :=
  Record.decode <| .optional "networkIP" .text <|
    .withDefault "accessConfigs" [] (.listOf (Record.decode <| .optional "natIP" .text <| .done id)) <|
    .done fun external internal => ⟨internal, external⟩

/-- A described instance. -/
def Instance.decode : Decode Instance :=
  Record.decode <| .required "name" .text <| .withDefault "status" "" .text <|
    .withDefault "networkInterfaces" [] (.listOf Interface.decode) <|
    .done fun interfaces status name => ⟨name, status, interfaces⟩

/-- An image as it is described: its name, and the text of its size in bytes. -/
structure Described where
  name : String
  size : Option String
  deriving DecidableEq, Repr

/-- A described image. -/
def Described.decode : Decode Described :=
  Record.decode <| .required "name" .text <|
    .withDefault "archiveSizeBytes" none (Decode.optional .text) <|
    .done fun size name => ⟨name, size⟩

/-! ### Machines -/

variable [Parsers]

/-- The flags that name an image, in a project where the text has one before a slash. -/
def imageFlags (image : String) : List String :=
  match Text.splitOnce '/' image.toList with
  | some (project, name) => ["--image=" ++ String.ofList name, "--image-project=" ++ String.ofList project]
  | none => ["--image=" ++ image]

/-- The command that creates an instance. -/
def create (c : Config.Gce) (spec : Spec) : Command :=
  onInstance c "create" spec.name
    (["--machine-type=" ++ c.machineType, "--network=" ++ c.network, "--subnet=" ++ c.subnet,
      "--scopes=" ++ c.scope, "--format=json"] ++ imageFlags (spec.image.getD c.sourceImage))

/-- Creates an instance. Where the tool names none, it has the name that was asked for. -/
def provision (c : Config.Gce) (spec : Spec) : Work (Except Failure Handle) := do
  match ← (create c spec).runJson (.listOf Instance.decode) with
  | .error f => pure (.error (.provision Gce.name f.message))
  | .ok created =>
    let made := (created.head?.map Instance.name).getD spec.name
    pure (.ok ⟨made, made⟩)

/-- The instance of a name, or why there is none. -/
def describe (c : Config.Gce) (id : String) : Work (Except String Instance) := do
  match ← (onInstance c "describe" id ["--format=json"]).runJson Instance.decode with
  | .error f => pure (.error f.message)
  | .ok i => pure (.ok i)

/-- The addresses of an instance: the internal ones of all interfaces, then the external ones. -/
def Instance.addresses (i : Instance) : List Address :=
  (i.interfaces.map Interface.internal ++ i.interfaces.flatMap Interface.external).filterMap fun text =>
    text.bind Address.ofText?

/-- Serves a request. -/
def serve (c : Config.Gce) : (request : Request) → Work request.Answer
  | .provision spec => provision c spec
  | .destroy machine => do
    match ← (onInstance c "delete" machine.id ["--quiet"]).run with
    | .ok _ => pure (.ok ())
    | .error f => pure (.error (.destroy machine.id f.message))
  | .addresses machine => do
    match ← describe c machine.id with
    | .ok i => pure (.ok i.addresses)
    | .error why => pure (.error (.network machine.id why))
  | .state machine => do
    match ← describe c machine.id with
    | .ok i => pure (.ok (State.ofGce i.status))
    | .error why => pure (.error (.backendCall Gce.name why))

/-- The backend of GCE. -/
def backend (c : Config.Gce) : Backend :=
  ⟨name, some name, serve c⟩

/-- Logs in with the configured key file, which must exist. -/
def activate (c : Config.Gce) (files : Files) : Work (Except Failure Unit) := do
  if files.has c.authFile then
    match ← (Command.mk "gcloud" ["auth", "activate-service-account", "--key-file=" ++ c.authFile]).run with
    | .ok _ => pure (.ok ())
    | .error f => pure (.error (.config ("gcp: failed to authenticate: " ++ f.message)))
  else pure (.error (.config ("gcp: auth_file " ++ c.authFile ++ " does not exist")))

/-! ### Images -/

/-- The record of an image, whose name is also its id. A size that is no number counts as zero. -/
def Described.record (d : Described) : Image.Record :=
  let size := (d.size.bind fun s => Text.readSigned 10 Text.wordLimit s.toList).getD 0
  ⟨d.name, [d.name], [d.name], size.toUInt64⟩

/-- Finds images, in the configured project or in the one that the reference names. -/
def find (c : Config.Gce) (reference : Image.Reference) : Work (Except Failure (List Image.Record)) := do
  let ask : Command := ⟨"gcloud", ["compute", "images", "list",
    "--project=" ++ reference.qualifier.getD c.project, "--no-standard-images",
    "--filter=name=" ++ reference.name, "--format=json"]⟩
  match ← ask.runJson (.listOf Described.decode) with
  | .error f => pure (.error (.backendCall name f.message))
  | .ok images => pure (.ok (images.map Described.record))

/-- The catalog of GCE. -/
def catalog (c : Config.Gce) : Catalog :=
  ⟨name, find c⟩

end PodMachines.Backend.Gce
