import PodMachines.Doc.Decode
import PodMachines.Outside
import PodMachines.Text.Blank
import PodMachines.Text.Utf8

/-!
# Tools

A backend is driven through its command line tool: the tool is run to its end, and what it prints is taken as
text or decoded. A tool that ends badly says why on its error output, else by how it ended.
-/

namespace PodMachines

/-- The names of the signals that end a tool. -/
def signalNames : List (Nat × String) := [
  (1, "SIGHUP"), (2, "SIGINT"), (3, "SIGQUIT"), (4, "SIGILL"), (5, "SIGTRAP"), (6, "SIGABRT"), (7, "SIGBUS"),
  (8, "SIGFPE"), (9, "SIGKILL"), (10, "SIGUSR1"), (11, "SIGSEGV"), (12, "SIGUSR2"), (13, "SIGPIPE"),
  (14, "SIGALRM"), (15, "SIGTERM"), (16, "SIGSTKFLT"), (17, "SIGCHLD"), (18, "SIGCONT"), (19, "SIGSTOP"),
  (20, "SIGTSTP"), (21, "SIGTTIN"), (22, "SIGTTOU"), (23, "SIGURG"), (24, "SIGXCPU"), (25, "SIGXFSZ"),
  (26, "SIGVTALRM"), (27, "SIGPROF"), (28, "SIGWINCH"), (29, "SIGIO"), (30, "SIGPWR"), (31, "SIGSYS")]

/-- How an ending reads. -/
def Ending.toText : Ending → String
  | exit code => "exit status: " ++ toString code
  | signal number =>
    match signalNames.find? (·.1 = number) with
    | some (_, name) => "signal: " ++ toString number ++ " (" ++ name ++ ")"
    | none => "signal: " ++ toString number

/-- Whether a tool ended well. -/
def Ending.isSuccess : Ending → Bool
  | exit code => code = 0
  | signal _ => false

/-- A command that failed, and why. -/
structure CommandFailure where
  command : String
  detail : String
  deriving DecidableEq, Repr

/-- How a failed command reads. -/
def CommandFailure.message (f : CommandFailure) : String :=
  "`" ++ f.command ++ "` failed: " ++ f.detail

namespace Command

/-- Why a tool that was started failed. -/
def complaint (e : Ended) : String :=
  let said := Text.trim (Text.Utf8.decodeLossy e.stderr)
  if said.isEmpty then "exited with " ++ e.ending.toText else said

/-- What became of a command: what it printed, or why it failed. -/
def result (c : Command) : Except String Ended → Except CommandFailure String
  | .error why => .error ⟨c.toText, "failed to spawn " ++ c.program ++ ": " ++ why⟩
  | .ok e =>
    if e.ending.isSuccess then .ok (Text.Utf8.decodeLossy e.stdout) else .error ⟨c.toText, complaint e⟩

/-- Runs a command for what it prints. -/
def run (c : Command) : Work (Except CommandFailure String) := do
  let reply ← Work.ask (.run c)
  pure (c.result reply)

/-- The failure of a command whose output could not be decoded. -/
def unparseable (c : Command) (e : Doc.DecodeError) : CommandFailure :=
  ⟨c.toText, "unparseable output: " ++ e.message⟩

/-- Runs a command for the value that it prints. -/
def runDecoded {α : Type} (c : Command) (decode : String → Except Doc.DecodeError α) :
    Work (Except CommandFailure α) := do
  match ← c.run with
  | .error f => pure (.error f)
  | .ok output =>
    match decode output with
    | .error e => pure (.error (c.unparseable e))
    | .ok a => pure (.ok a)

/-- Runs a command for the JSON document that it prints. -/
def runJson [Doc.Parsers] {α : Type} (c : Command) (decode : Doc.Decode α) : Work (Except CommandFailure α) :=
  c.runDecoded fun output => Doc.Decode.run decode (Doc.Parsers.json output)

end Command
end PodMachines
