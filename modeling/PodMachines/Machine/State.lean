import PodMachines.Text.Lines
import PodMachines.Text.Lowercase

/-!
# Machine states

The state of a machine, how it reads, and how each backend's own words for it are understood. A word that is
not known is kept.
-/

namespace PodMachines.Machine

/-- The state of a machine as a backend reports it. -/
inductive State
  | pending
  | running
  | stopping
  | stopped
  | terminated
  | other (word : String)
  deriving DecidableEq, Repr

namespace State

/-- Whether a sandbox on the machine can be ready. -/
def isRunning : State → Bool
  | running => true
  | _ => false

/-- How a state reads. -/
def toText : State → String
  | pending => "pending"
  | running => "running"
  | stopping => "stopping"
  | stopped => "stopped"
  | terminated => "terminated"
  | other word => word

/-- The state that EC2 names so. -/
def ofEc2 (name : String) : State :=
  if name = "pending" then pending
  else if name = "running" then running
  else if name = "stopping" ∨ name = "shutting-down" then stopping
  else if name = "stopped" then stopped
  else if name = "terminated" then terminated
  else other name

/-- The state that GCE names so. Words that are not known are kept in lower case. -/
def ofGce (status : String) : State :=
  if status = "PROVISIONING" ∨ status = "STAGING" then pending
  else if status = "RUNNING" then running
  else if status = "STOPPING" ∨ status = "SUSPENDING" then stopping
  else if status = "STOPPED" ∨ status = "SUSPENDED" ∨ status = "TERMINATED" then stopped
  else other (Text.lowercase status)

/-- The state that VirtualBox names so. -/
def ofVirtualBox (word : String) : State :=
  if word = "running" then running
  else if word = "starting" ∨ word = "restoring" then pending
  else if word = "stopping" ∨ word = "saving" then stopping
  else if word = "poweroff" ∨ word = "saved" ∨ word = "aborted" ∨ word = "paused" then stopped
  else other word

/-- The state in VirtualBox's description of a machine: the word between quotes on the first line of that
    key. -/
def ofVirtualBoxInfo? (info : String) : Option State :=
  (Text.firstKeyed "VMState=".toList info.toList).map fun word =>
    ofVirtualBox (String.ofList (Text.stripBoth (· = '"') word))

end State

/-- The value of a guest property as VirtualBox prints it: what follows the key on its first line, unless it is
    blank. -/
def guestProperty? (output : String) : Option String :=
  match Text.firstKeyed "Value:".toList output.toList with
  | some value =>
    let value := Text.trimChars value
    if value = [] then none else some (String.ofList value)
  | none => none

end PodMachines.Machine
