import PodMachines.Doc.Decode
import PodMachines.Failure
import PodMachines.Files
import PodMachines.Text.Blank

/-!
# Configurations

What each backend is told, the form of its configuration file, and how that file is found and read. The first
file that exists of three decides; a configuration is accepted when it decodes and no required field is blank.
-/

namespace PodMachines.Config
open Doc

/-- What the backend of EC2 is told. -/
structure Ec2 where
  /-- The image of a machine that asks for none. -/
  ami : String
  region : String
  securityGroup : String
  vpc : String
  subnet : String
  /-- The file of the private key; the key pair has its name. -/
  sshKey : String
  instanceType : String
  /-- Whose images are found. -/
  imageOwners : List String
  deriving DecidableEq, Repr

/-- What the backend of GCE is told. -/
structure Gce where
  /-- The image of a machine that asks for none. -/
  sourceImage : String
  zone : String
  project : String
  scope : String
  /-- The file of the service account's key. -/
  authFile : String
  network : String
  subnet : String
  machineType : String
  deriving DecidableEq, Repr

/-- What the backend of VirtualBox is told. -/
structure VirtualBox where
  /-- The host's interface to which machines are bridged. -/
  netDevice : String
  /-- The machine that is cloned. -/
  vmSrc : String
  /-- How many seconds a machine has to report an address. -/
  ipWaitSecs : UInt64
  deriving DecidableEq, Repr

/-- The name of the key pair. -/
def Ec2.keyPairName (c : Ec2) : String :=
  Path.stem c.sshKey

/-! ### Forms -/

/-- The form of a backend's configuration: its name, its fields, and the texts that may not be blank, by the
    names of their fields. -/
structure Form (α : Type) where
  name : String
  record : Record α
  required : α → List (String × String)

/-- The form of EC2. -/
def Ec2.form : Form Ec2 where
  name := "aws"
  record :=
    .required "ami" .text <| .required "region" .text <| .required "security_group" .text <|
    .required "vpc" .text <| .required "subnet" .text <| .required "ssh_key" .text <|
    .withDefault "instance_type" "t2.micro" .text <|
    .withDefault "image_owners" ["self"] (.listOf .text) <|
    .done fun imageOwners instanceType sshKey subnet vpc securityGroup region ami =>
      ⟨ami, region, securityGroup, vpc, subnet, sshKey, instanceType, imageOwners⟩
  required c := [("ami", c.ami), ("region", c.region), ("security_group", c.securityGroup), ("vpc", c.vpc),
    ("subnet", c.subnet), ("ssh_key", c.sshKey), ("instance_type", c.instanceType)]

/-- The form of GCE. -/
def Gce.form : Form Gce where
  name := "gcp"
  record :=
    .required "source_image" .text <| .required "zone" .text <| .required "project" .text <|
    .required "scope" .text <| .required "auth_file" .text <| .required "network" .text <|
    .required "subnet" .text <| .withDefault "machine_type" "n1-standard-1" .text <|
    .done fun machineType subnet network authFile scope project zone sourceImage =>
      ⟨sourceImage, zone, project, scope, authFile, network, subnet, machineType⟩
  required c := [("source_image", c.sourceImage), ("zone", c.zone), ("project", c.project), ("scope", c.scope),
    ("auth_file", c.authFile), ("network", c.network), ("subnet", c.subnet)]

/-- The form of VirtualBox. -/
def VirtualBox.form : Form VirtualBox where
  name := "virtualbox"
  record :=
    .required "net_device" .text <| .required "vm_src" .text <|
    .withDefault "ip_wait_secs" 300 .word <|
    .done fun ipWaitSecs vmSrc netDevice => ⟨netDevice, vmSrc, ipWaitSecs⟩
  required c := [("net_device", c.netDevice), ("vm_src", c.vmSrc)]

namespace Form
variable {α : Type}

/-- The first required field that is blank. -/
def firstBlank (form : Form α) (config : α) : Option String :=
  ((form.required config).find? fun (_, value) => Text.allBlank value).map (·.1)

/-- Refuses a configuration of which a required field is blank. -/
def check (form : Form α) (config : α) : Except Failure α :=
  match form.firstBlank config with
  | some field => .error (.config (form.name ++ ": required field '" ++ field ++ "' is missing or empty"))
  | none => .ok config

/-- The configuration that a document holds. -/
def decode (form : Form α) (doc : Events) : Except Failure α :=
  match Decode.run form.record.decode doc with
  | .ok config => .ok config
  | .error e => .error (.serialization e.message)

/-! ### Loading -/

/-- A format of configuration files: the extension of their names, and how they are parsed. -/
structure Format where
  extension : String
  events : String → Events

variable [Parsers]

/-- The formats in the order in which their files are looked for. -/
def formats : List Format :=
  [⟨"json", Parsers.json⟩, ⟨"yaml", Parsers.yaml⟩, ⟨"yml", Parsers.yaml⟩]

/-- The path of the configuration file of a format. -/
def file (form : Form α) (directory : String) (format : Format) : String :=
  Path.join directory (form.name ++ "." ++ format.extension)

/-- The configuration in a file. -/
def read (form : Form α) (files : Files) (path : String) (format : Format) : Except Failure α :=
  match files.readText path with
  | .error fault => .error (.config ("Failed to read " ++ path ++ ": " ++ fault.message))
  | .ok text =>
    match form.decode (format.events text) with
    | .error e => .error (.config ("Invalid " ++ path ++ ": " ++ e.message))
    | .ok config => form.check config

/-- The configuration of a directory: that of the first file that exists. -/
def load (form : Form α) (files : Files) (directory : String) : Except Failure α :=
  match formats.find? fun format => files.has (form.file directory format) with
  | none => .error (.config ("No " ++ form.name ++ ".json or " ++ form.name ++ ".yaml in " ++ directory))
  | some format => form.read files (form.file directory format) format

end Form
end PodMachines.Config
