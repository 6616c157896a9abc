import PodMachines.Status

/-!
# Failures

Why an operation failed, how each cause reads, and with which status a request that meets it ends. An agent's
own status passes through unchanged.
-/

namespace PodMachines

/-- Why an operation failed. -/
inductive Failure
  /-- A sandbox or an image is unknown. -/
  | notFound (resource id : String)
  /-- A container request named an unknown sandbox. -/
  | sandboxMissing (id : String)
  /-- A backend could not create a machine. -/
  | provision (backend message : String)
  /-- A backend could not destroy a machine. -/
  | destroy (id message : String)
  /-- A machine has no usable address. -/
  | network (id message : String)
  /-- The agent of a machine does not answer. -/
  | agentUnreachable (address message : String)
  /-- Any other call of a backend failed. -/
  | backendCall (backend message : String)
  /-- A catalog has several images of one reference. -/
  | ambiguousImage (reference : String) (found : Nat)
  /-- A text is no image reference. -/
  | invalidReference (reference : String)
  /-- The operation does not exist. -/
  | unimplemented (operation : String)
  /-- A configuration is missing, unreadable or incomplete. -/
  | config (message : String)
  /-- A provider name is taken. -/
  | alreadyRegistered (what : String)
  /-- No provider has the name. -/
  | unknownProvider (name available : String)
  /-- An agent answered with this status. -/
  | agent (status : Status)
  /-- Reading or writing failed. -/
  | io (message : String)
  /-- A document could not be decoded. -/
  | serialization (message : String)
  deriving DecidableEq, Repr

namespace Failure

/-- No sandbox has the id. -/
def noSandbox (id : String) : Failure :=
  .notFound "Sandbox" id

/-- No image has the reference. -/
def noImage (reference : String) : Failure :=
  .notFound "Image" reference

/-- How a failure reads. -/
def message : Failure → String
  | notFound resource id => resource ++ " not found: " ++ id
  | sandboxMissing id => "Sandbox not found: " ++ id
  | provision backend message => "Provision failed on " ++ backend ++ ": " ++ message
  | destroy id message => "Destroy failed for " ++ id ++ ": " ++ message
  | network id message => "Network error for " ++ id ++ ": " ++ message
  | agentUnreachable address message => "Agent unreachable at " ++ address ++ ": " ++ message
  | backendCall backend message => "Backend error: " ++ backend ++ " - " ++ message
  | ambiguousImage reference found => "Ambiguous image " ++ reference ++ ": " ++ toString found ++ " matches"
  | invalidReference reference => "Invalid image reference: " ++ reference
  | unimplemented operation => "Unimplemented: " ++ operation
  | config message => "Configuration error: " ++ message
  | alreadyRegistered what => "Provider already registered: " ++ what
  | unknownProvider name available => "Unknown provider: " ++ name ++ " (available: " ++ available ++ ")"
  | agent status => "gRPC error: " ++ status.toText
  | io message => "I/O error: " ++ message
  | serialization message => "Serialization error: " ++ message

/-- Whether something was looked up and not found. -/
def isNotFound : Failure → Bool
  | notFound .. => true
  | _ => false

/-- The status with which a request that met the failure ends. -/
def status (f : Failure) : Status :=
  match f with
  | agent status => status
  | notFound .. | sandboxMissing _ => ⟨.notFound, f.message⟩
  | network .. | agentUnreachable .. | backendCall .. => ⟨.unavailable, f.message⟩
  | ambiguousImage .. => ⟨.failedPrecondition, f.message⟩
  | invalidReference _ | config _ => ⟨.invalidArgument, f.message⟩
  | unimplemented _ => ⟨.unimplemented, f.message⟩
  | provision .. | destroy .. | alreadyRegistered _ | unknownProvider .. | io _ | serialization _ =>
    ⟨.internal, f.message⟩

/-- A failure to provision, whatever went wrong. -/
def asProvision (backend : String) (f : Failure) : Failure :=
  match f with
  | provision .. => f
  | other => .provision backend other.message

/-- A failure to destroy, whatever went wrong. -/
def asDestroy (id : String) (f : Failure) : Failure :=
  match f with
  | destroy .. => f
  | other => .destroy id other.message

/-- A failure of the network, whatever went wrong. -/
def asNetwork (id : String) (f : Failure) : Failure :=
  match f with
  | network .. => f
  | other => .network id other.message

/-- An agent out of reach, whatever went wrong. -/
def asUnreachable (address : String) (f : Failure) : Failure :=
  match f with
  | agentUnreachable .. => f
  | other => .agentUnreachable address other.message

end Failure
end PodMachines
