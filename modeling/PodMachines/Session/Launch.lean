import PodMachines.CommandLine
import PodMachines.Service.Socket
import PodMachines.Session.Setup

/-!
# Launching the program

The program run in a simulated outside: what it prints, how it ends, and what its service answers before it is
told to end.
-/

namespace PodMachines.Session

/-- How a program that listens was served. -/
structure Served where
  version : Service.Version
  /-- What a list of images answers. -/
  images : Answer
  socketLeft : Bool

/-- What became of the program. -/
structure Launch where
  exit : Nat
  stdout : String
  stderr : String
  /-- Whether it wrote its log in JSON; none if it wrote none. -/
  log : Option Bool
  served : Option Served
  calls : List Command

/-- The session of what was started. -/
def ofStarted (args : CommandLine.Args) (started : CommandLine.Started) (world : World) (now : Nat) : Session :=
  let pods := Pods.System.new started.backend.name started.backend.catalog now
  { world := world
    pods := if started.imageBoot then pods.enableImageBoot else pods
    backend := started.backend
    connector := CommandLine.connector args
    images := started.images
    inquiries := []
    named := 0
    held := none
    created := [] }

/-- What a list of images answers. -/
def listedImages (s : Session) : Answer :=
  match s.step (.one (.request (.listImages none))) with
  | .ok (answer, _) => answer
  | .error why => .failed (.io why)

/-- The program, run with arguments. Once it listens it is asked for its version and its images, and then told
    to end. -/
def launch (arguments : List String) (home : String) (files : Files) (script : Tool.Script) : Launch :=
  match CommandLine.parse arguments with
  | .error .version => ⟨0, CommandLine.versionText, "", none, none, []⟩
  | .error .help => ⟨0, CommandLine.helpText, "", none, none, []⟩
  | .error .usage => ⟨2, "", CommandLine.refusalText, none, none, []⟩
  | .ok args =>
    let failed (t : CommandLine.Trouble) (calls : List Command) : Launch :=
      ⟨1, "", t.message, some args.logJson, none, calls⟩
    let directory := CommandLine.expandHome home args.configDir
    let (outcome, world, now) :=
      (CommandLine.start args files directory).run World.answerAlone (World.new script [], startTime)
    match outcome with
    | .crashed why => failed ⟨why, none⟩ world.script.calls
    | .done (.error t) => failed t world.script.calls
    | .done (.ok started) =>
      match Service.Socket.listen files args.socket with
      | .error fault => failed (CommandLine.cannotListen fault.message) world.script.calls
      | .ok files =>
        let s := ofStarted args started world now
        let left := (Service.Socket.close files args.socket).has args.socket
        ⟨0, "", "", some args.logJson, some ⟨Service.version, s.listedImages, left⟩, world.script.calls⟩

end PodMachines.Session
