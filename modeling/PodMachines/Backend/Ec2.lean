import PodMachines.Backend
import PodMachines.Config
import PodMachines.Tool

/-!
# Machines and images of EC2

EC2 is driven through the tool `aws`. A machine is launched and then waited for; one that never runs is
terminated. A machine's addresses and state are those of the first instance described under its id.
-/

namespace PodMachines.Backend.Ec2
open Doc Machine

/-- The name of the backend and of its catalog. -/
def name : String := "aws"

/-- A command of the tool in the configured region. -/
def command (c : Config.Ec2) (verb more : List String) : Command :=
  ⟨"aws", verb ++ ["--region", c.region, "--output", "json"] ++ more⟩

/-! ### What the tool prints -/

/-- An instance as it is described. -/
structure Instance where
  id : String
  state : String
  privateAddress : Option String
  publicAddress : Option String
  deriving DecidableEq, Repr

/-- The account of the caller. -/
def identity : Decode String :=
  Record.decode <| .required "Account" .text <| .done id

/-- The ids of launched instances. -/
def launched : Decode (List String) :=
  Record.decode <|
    .withDefault "Instances" [] (.listOf (Record.decode <| .required "InstanceId" .text <| .done id)) <| .done id

/-- A described instance. -/
def Instance.decode : Decode Instance :=
  Record.decode <| .required "InstanceId" .text <|
    .required "State" (Record.decode <| .required "Name" .text <| .done fun name => name) <|
    .optional "PrivateIpAddress" .text <| .optional "PublicIpAddress" .text <|
    .done fun publicAddress privateAddress state id => ⟨id, state, privateAddress, publicAddress⟩

/-- The described instances, of one reservation after another. -/
def described : Decode (List Instance) :=
  Record.decode <|
    .withDefault "Reservations" [] (.listOf (Record.decode <|
      .withDefault "Instances" [] (.listOf Instance.decode) <| .done id)) <| .done List.flatten

/-- An image as it is described. -/
structure Ami where
  id : String
  name : String
  /-- The sizes of its volumes in GiB. -/
  volumes : List UInt64
  deriving DecidableEq, Repr

/-- A described image. -/
def Ami.decode : Decode Ami :=
  Record.decode <| .required "ImageId" .text <| .withDefault "Name" "" .text <|
    .withDefault "BlockDeviceMappings" [] (.listOf (Record.decode <|
      .optional "Ebs" (Record.decode <| .optional "VolumeSize" .word <| .done fun size => size) <| .done Option.join)) <|
    .done fun mappings name id => ⟨id, name, mappings.filterMap fun size => size⟩

/-- The described images. -/
def describedImages : Decode (List Ami) :=
  Record.decode <| .withDefault "Images" [] (.listOf Ami.decode) <| .done id

/-! ### Machines -/

variable [Parsers]

/-- Terminates an instance. -/
def terminate (c : Config.Ec2) (id : String) : Work (Except CommandFailure String) :=
  (command c ["ec2", "terminate-instances"] ["--instance-ids", id]).run

/-- The command that launches an instance. -/
def launch (c : Config.Ec2) (spec : Spec) : Command :=
  command c ["ec2", "run-instances"]
    ["--image-id", spec.image.getD c.ami, "--instance-type", c.instanceType, "--count", "1",
      "--key-name", c.keyPairName, "--security-group-ids", c.securityGroup, "--subnet-id", c.subnet,
      "--tag-specifications", "ResourceType=instance,Tags=[\x7bKey=Name,Value=" ++ spec.name ++ "\x7d]"]

/-- Launches an instance and waits for it. -/
def provision (c : Config.Ec2) (spec : Spec) : Work (Except Failure Handle) := do
  match ← (launch c spec).runJson launched with
  | .error f => pure (.error (.provision name f.message))
  | .ok [] => pure (.error (.provision name "run-instances returned no instance"))
  | .ok (id :: _) =>
    match ← (command c ["ec2", "wait", "instance-running"] ["--instance-ids", id]).run with
    | .ok _ => pure (.ok ⟨id, spec.name⟩)
    | .error f =>
      let _ ← terminate c id
      pure (.error (.provision name f.message))

/-- The first instance of an id, or why there is none. -/
def select (id : String) (instances : List Instance) : Except String Instance :=
  match instances.find? (·.id = id) with
  | some i => .ok i
  | none => .error ("instance " ++ id ++ " not returned by describe-instances")

/-- The instance of an id, or why there is none. -/
def describe (c : Config.Ec2) (id : String) : Work (Except String Instance) := do
  match ← (command c ["ec2", "describe-instances"] ["--instance-ids", id]).runJson described with
  | .error f => pure (.error f.message)
  | .ok instances => pure (select id instances)

/-- The addresses of an instance, the private one first. -/
def Instance.addresses (i : Instance) : List Address :=
  [i.privateAddress, i.publicAddress].filterMap fun text => text.bind Address.ofText?

/-- Serves a request. -/
def serve (c : Config.Ec2) : (request : Request) → Work request.Answer
  | .provision spec => provision c spec
  | .destroy machine => do
    match ← terminate c machine.id with
    | .ok _ => pure (.ok ())
    | .error f => pure (.error (.destroy machine.id f.message))
  | .addresses machine => do
    match ← describe c machine.id with
    | .ok i => pure (.ok i.addresses)
    | .error why => pure (.error (.network machine.id why))
  | .state machine => do
    match ← describe c machine.id with
    | .ok i => pure (.ok (State.ofEc2 i.state))
    | .error why => pure (.error (.backendCall name why))

/-- The backend of EC2. -/
def backend (c : Config.Ec2) : Backend :=
  ⟨name, some name, serve c⟩

/-- Refuses unless the key file exists and the tool knows its caller. -/
def validate (c : Config.Ec2) (files : Files) : Work (Except Failure Unit) := do
  if files.has c.sshKey then
    match ← (command c ["sts", "get-caller-identity"] []).runJson identity with
    | .ok _ => pure (.ok ())
    | .error f => pure (.error (.config ("aws: failed to validate credentials: " ++ f.message)))
  else pure (.error (.config ("aws: ssh_key " ++ c.sshKey ++ " does not exist")))

/-! ### Images -/

/-- How many bytes are a GiB. -/
def gib : Nat := 1024 * 1024 * 1024

/-- The size of volumes together, in GiB. It breaks down as soon as the word overflows. -/
def total : (sum : Nat) → List UInt64 → Work Nat
  | sum, [] => pure sum
  | sum, size :: sizes =>
    if sum + size.toNat < UInt64.size then total (sum + size.toNat) sizes else .crash "attempt to add with overflow"

/-- The size of an image in bytes, which is that of its volumes. It breaks down where it overflows the word. -/
def Ami.size (a : Ami) : Work UInt64 := do
  let sum ← total 0 a.volumes
  if sum * gib < UInt64.size then pure (sum * gib).toUInt64 else .crash "attempt to multiply with overflow"

/-- The record of an image. Its tag is its name, or its id where it has none. -/
def Ami.record (a : Ami) : Work Image.Record := do
  let size ← a.size
  pure ⟨a.id, [if a.name.isEmpty then a.id else a.name], [a.id], size⟩

/-- The records of images, one after another. -/
def records : List Ami → Work (List Image.Record)
  | [] => pure []
  | a :: images => do
    let record ← a.record
    let rest ← records images
    pure (record :: rest)

/-- Finds images, of the configured owners or of the one that the reference names. -/
def find (c : Config.Ec2) (reference : Image.Reference) : Work (Except Failure (List Image.Record)) := do
  let owners := match reference.qualifier with
    | some owner => [owner]
    | none => c.imageOwners
  let ask := command c ["ec2", "describe-images"]
    ("--owners" :: owners ++ ["--filters", "Name=name,Values=" ++ reference.name])
  match ← ask.runJson describedImages with
  | .error f => pure (.error (.backendCall name f.message))
  | .ok images =>
    let found ← records images
    pure (.ok found)

/-- The catalog of EC2. -/
def catalog (c : Config.Ec2) : Catalog :=
  ⟨name, find c⟩

end PodMachines.Backend.Ec2
