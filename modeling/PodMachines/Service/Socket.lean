import PodMachines.Files

/-!
# The service's socket

The service listens on a socket, which is a file. What is at its path is removed first, and the directories on
the way to it are made; when the service ends the socket is removed.
-/

namespace PodMachines.Service.Socket

/-- The files without what is at a path, if anything is. -/
def cleared (files : Files) (path : String) : Except Files.Fault Files :=
  if files.has path then files.remove path else .ok files

/-- The files with the directory in which a path lies. -/
def withParent (files : Files) (path : String) : Except Files.Fault Files :=
  match Path.parent? path with
  | some directory => files.makeDirectory directory
  | none => .ok files

/-- The files once the service listens at a path. -/
def listen (files : Files) (path : String) : Except Files.Fault Files := do
  let files ← cleared files path
  let files ← withParent files path
  .ok (files.put path (.file []))

/-- The files once the service has ended. -/
def close (files : Files) (path : String) : Files :=
  match files.remove path with
  | .ok files => files
  | .error _ => files

end PodMachines.Service.Socket
