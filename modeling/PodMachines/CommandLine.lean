import PodMachines.Agent.Dial
import PodMachines.Doc.Standard
import PodMachines.Providers
import PodMachines.Service

/-!
# The command line

What the program is told on its command line, and how it starts: the provider of pods first, then the provider
of images, which are offered to the pods.
-/

namespace PodMachines.CommandLine

/-- What the program is told. -/
structure Args where
  socket : String
  podProvider : String
  imageProvider : Option String
  configDir : String
  agentPort : Nat
  /-- For how many seconds a new agent is dialed. -/
  agentConnectTimeout : Nat
  logJson : Bool
  deriving DecidableEq, Repr

/-- What was found on the command line so far. -/
structure Found where
  socket : Option String := none
  podProvider : Option String := none
  imageProvider : Option String := none
  configDir : Option String := none
  agentPort : Option Nat := none
  agentConnectTimeout : Option Nat := none
  logJson : Bool := false
  deriving DecidableEq, Repr

/-- Why the program does not start. -/
inductive Stop
  | version
  | help
  | usage
  deriving DecidableEq, Repr

/-- An option that takes a value. -/
inductive Opt
  | socket
  | podProvider
  | imageProvider
  | configDir
  | agentPort
  | agentConnectTimeout
  deriving DecidableEq, Repr

/-- The options that take a value, by name. -/
def opts : List (String × Opt) := [
  ("--socket", .socket), ("--pod-provider", .podProvider), ("--image-provider", .imageProvider),
  ("--config-dir", .configDir), ("--agent-port", .agentPort), ("--agent-connect-timeout", .agentConnectTimeout)]

/-- One more than the greatest port. -/
def portLimit : Nat := 0x10000

/-- A port: a number of at most 16 bits. -/
def portOf? (s : String) : Option Nat :=
  match s.toList with
  | '-' :: rest => (Text.readDigits 10 Text.wordLimit rest).filter (· = 0)
  | chars => Text.readSigned 10 portLimit chars

/-- With the value of an option, which may be given once. -/
def Found.put (f : Found) (opt : Opt) (value : String) : Except Stop Found :=
  match opt with
  | .socket => if f.socket.isSome || value.isEmpty then .error .usage else .ok { f with socket := some value }
  | .podProvider => if f.podProvider.isSome then .error .usage else .ok { f with podProvider := some value }
  | .imageProvider => if f.imageProvider.isSome then .error .usage else .ok { f with imageProvider := some value }
  | .configDir => if f.configDir.isSome then .error .usage else .ok { f with configDir := some value }
  | .agentPort =>
    match f.agentPort, portOf? value with
    | none, some n => .ok { f with agentPort := some n }
    | _, _ => .error .usage
  | .agentConnectTimeout =>
    match f.agentConnectTimeout, Text.readSigned 10 Text.wordLimit value.toList with
    | none, some n => .ok { f with agentConnectTimeout := some n }
    | _, _ => .error .usage

/-- Whether an argument can be the value of the option before it. -/
def isValue (arg : String) : Bool :=
  !arg.startsWith "-" || arg = "-"

/-- An option and the value that follows an equals sign. -/
def withValue (arg : String) : Option (Opt × String) :=
  match Text.splitOnce '=' arg.toList with
  | some (name, value) => (opts.find? (·.1.toList = name)).map fun (_, opt) => (opt, String.ofList value)
  | none => none

/-- What an argument is, where no value is expected. -/
inductive Word
  | stop (s : Stop)
  | logJson
  | separator
  /-- An option whose value is the next argument. -/
  | opening (opt : Opt)
  | complete (opt : Opt) (value : String)

/-- The text that an argument asks for: by its name, or by a letter that may stand before others. -/
def textAsked (arg : String) : Option Stop :=
  if arg = "--version" ∨ arg.startsWith "-V" then some .version
  else if arg = "--help" ∨ arg.startsWith "-h" then some .help
  else none

/-- The meaning of an argument where no value is expected. -/
def wordOf (arg : String) : Word :=
  if let some stop := textAsked arg then .stop stop
  else if arg = "--log-json" then .logJson
  else if arg = "--" then .separator
  else
    match opts.find? (·.1 = arg), withValue arg with
    | some (_, opt), _ => .opening opt
    | none, some (opt, value) => .complete opt value
    | none, none => .stop .usage

/-- Reads arguments from left to right, the first perhaps being the value of an option. The first that is wrong,
    or that asks for nothing but a text, decides. -/
def read (f : Found) : (opening : Option Opt) → List String → Except Stop Found
  | none, [] => .ok f
  | some _, [] => .error .usage
  | some opt, value :: rest =>
    if isValue value then
      match f.put opt value with
      | .ok f => read f none rest
      | .error stop => .error stop
    else .error .usage
  | none, arg :: rest =>
    match wordOf arg with
    | .stop stop => .error stop
    | .logJson => if f.logJson then .error .usage else read { f with logJson := true } none rest
    | .separator => if rest.isEmpty then .ok f else .error .usage
    | .opening opt => read f (some opt) rest
    | .complete opt value =>
      match f.put opt value with
      | .ok f => read f none rest
      | .error stop => .error stop

/-- What the program is told, with defaults for what it is not told. The provider of pods must be given. -/
def parse (arguments : List String) : Except Stop Args := do
  let f ← read {} none arguments
  match f.podProvider with
  | none => .error .usage
  | some podProvider =>
    .ok {
      socket := f.socket.getD "/var/run/vmpod/vmpod.sock"
      podProvider := podProvider
      imageProvider := f.imageProvider
      configDir := f.configDir.getD "~/.vmpod"
      agentPort := f.agentPort.getD 2375
      agentConnectTimeout := f.agentConnectTimeout.getD 30
      logJson := f.logJson }

/-- A path in which a tilde at the start stands for the home directory. -/
def expandHome (home path : String) : String :=
  match path.toList with
  | '~' :: '/' :: rest => Path.join home (String.ofList rest)
  | '~' :: _ => Path.join home ""
  | _ => path

/-- Why starting failed: what could not be done, and the cause. -/
structure Trouble where
  what : String
  cause : Option String
  deriving DecidableEq, Repr

/-- A text with four blanks before each of its lines. -/
def indented (s : String) : String :=
  String.ofList (Text.joinWith '\n' ((Text.splitOn '\n' s.toList).map ("    ".toList ++ ·)))

/-- How a trouble reads. -/
def Trouble.message (t : Trouble) : String :=
  "Error: " ++ t.what ++
    match t.cause with
    | some cause => "\n\nCaused by:\n" ++ indented cause
    | none => ""

/-- What was started. -/
structure Started where
  backend : Backend
  images : Option Images
  /-- Whether the pods boot images. -/
  imageBoot : Bool

/-- Starts the providers. -/
def start (args : Args) (files : Files) (directory : String) : Work (Except Trouble Started) := do
  match ← Providers.builtin.startPods files directory args.podProvider with
  | .error f => pure (.error ⟨"Failed to start pod provider '" ++ args.podProvider ++ "'", some f.message⟩)
  | .ok backend =>
    match args.imageProvider with
    | none => pure (.ok ⟨backend, none, false⟩)
    | some name =>
      match ← Providers.builtin.startImages files directory name with
      | .error f => pure (.error ⟨"Failed to start image provider '" ++ name ++ "'", some f.message⟩)
      | .ok catalog =>
        let images := Images.ofCatalog catalog
        pure (.ok ⟨backend, some images, images.integrates backend.catalog⟩)

/-- The trouble of a service that cannot listen. -/
def cannotListen (why : String) : Trouble :=
  ⟨"CRI server failed: " ++ why, none⟩

/-- The connector of the program. -/
def connector (args : Args) : Agent.Connector :=
  .dialing ⟨args.agentPort, args.agentConnectTimeout * 1000⟩

/-! ### Texts -/

/-- What the program says of its version. -/
def versionText : String := "vmpod-cri 0.1.0"

/-- The options as they are written, and what each is for. -/
def described : List (String × String) := [
  ("    --socket <SOCKET>",
    "Path to the Unix domain socket for CRI communication [default: /var/run/vmpod/vmpod.sock]"),
  ("    --pod-provider <POD_PROVIDER>", "Backend running the sandbox VMs (aws, gcp, virtualbox)"),
  ("    --image-provider <IMAGE_PROVIDER>", "Image catalog served through the CRI ImageService (aws, gcp)"),
  ("    --config-dir <CONFIG_DIR>", "Directory holding per-backend configuration files [default: ~/.vmpod]"),
  ("    --agent-port <AGENT_PORT>", "Port of the agent inside each sandbox VM [default: 2375]"),
  ("    --agent-connect-timeout <AGENT_CONNECT_TIMEOUT>",
    "Seconds to keep retrying the agent of a new sandbox [default: 30]"),
  ("    --log-json", "Emit logs as JSON"),
  ("-h, --help", "Print help"),
  ("-V, --version", "Print version")]

/-- How the program is called. -/
def usageText : String :=
  "Usage: vmpod-cri [OPTIONS] --pod-provider <POD_PROVIDER>"

/-- What the program says to arguments that it does not accept. -/
def refusalText : String :=
  "error: the arguments are not accepted\n\n" ++ usageText

/-- What the program says of itself. -/
def helpText : String :=
  "\n".intercalate (["vmpod CRI Runtime", "", usageText, "", "Options:"] ++
    described.flatMap fun (option, purpose) => ["  " ++ option, "          " ++ purpose])

/-! ### Files -/

/-- The configuration files that starting may look for. -/
def configFiles (directory : String) : List String :=
  let named {α : Type} (form : Config.Form α) := Config.Form.formats.map (form.file directory)
  named Config.Ec2.form ++ named Config.Gce.form ++ named Config.VirtualBox.form

/-- The files of keys that the configurations of a directory name. -/
def keyFiles (files : Files) (directory : String) : List String :=
  (match Config.Ec2.form.load files directory with
    | .ok config => [config.sshKey]
    | .error _ => []) ++
  (match Config.Gce.form.load files directory with
    | .ok config => [config.authFile]
    | .error _ => [])

end PodMachines.CommandLine
