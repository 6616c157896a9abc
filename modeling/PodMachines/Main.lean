import PodMachines.Session.Launch

/-!
# The program

Reads the files that the command line points to, launches the program where no tool is installed, and prints
what it says. Nothing listens here: a program that would serve says so.
-/

namespace PodMachines.Main

/-- The error number of a directory that is read as a file. -/
def isDirectory : UInt32 := 21

/-- What is at a path: nothing, a file or a directory. -/
def entryAt (path : String) : IO (Option Entry) := do
  try
    pure (some (.file (← IO.FS.readBinFile path).toList))
  catch e =>
    match e with
    | .inappropriateType _ code _ => pure (if code = isDirectory then some .directory else none)
    | _ => pure none

/-- The files with what is at some paths. -/
def withPaths (files : Files) (paths : List String) : IO Files :=
  paths.foldlM (fun files path => do
    match ← entryAt path with
    | some entry => pure (files.putBelow path entry)
    | none => pure files) files

/-- The files that the program looks at when it is started with arguments. -/
def filesFor (arguments : List String) (home : String) : IO Files :=
  match CommandLine.parse arguments with
  | .error _ => pure .empty
  | .ok args => do
    let directory := CommandLine.expandHome home args.configDir
    let files ← withPaths .empty (CommandLine.configFiles directory)
    withPaths files (CommandLine.keyFiles files directory)

end PodMachines.Main

open PodMachines in
/-- Runs the program. -/
def main (arguments : List String) : IO UInt32 := do
  let home := (← IO.getEnv "HOME").getD "."
  let launch := Session.launch arguments home (← Main.filesFor arguments home) .missing
  match launch.served with
  | none =>
    unless launch.stdout.isEmpty do IO.println launch.stdout
    unless launch.stderr.isEmpty do IO.eprintln launch.stderr
    pure launch.exit.toUInt32
  | some _ =>
    IO.eprintln (CommandLine.cannotListen "transport error").message
    pure 1
