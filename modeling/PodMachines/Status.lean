import PodMachines.Text.Quoted

/-!
# Status of a request

Every request to the service or to an agent that fails answers with a code and a message. Details and metadata, with
which an agent may answer too, are left out: nothing here sets or reads them.
-/

namespace PodMachines

/-- The codes with which a request may end. -/
inductive Code
  | ok | cancelled | unknown | invalidArgument | deadlineExceeded | notFound | alreadyExists
  | permissionDenied | resourceExhausted | failedPrecondition | aborted | outOfRange | unimplemented
  | internal | unavailable | dataLoss | unauthenticated
  deriving DecidableEq, Repr

/-- Every code with its name. -/
def Code.names : List (Code × String) := [
  (.ok, "Ok"), (.cancelled, "Cancelled"), (.unknown, "Unknown"), (.invalidArgument, "InvalidArgument"),
  (.deadlineExceeded, "DeadlineExceeded"), (.notFound, "NotFound"), (.alreadyExists, "AlreadyExists"),
  (.permissionDenied, "PermissionDenied"), (.resourceExhausted, "ResourceExhausted"),
  (.failedPrecondition, "FailedPrecondition"), (.aborted, "Aborted"), (.outOfRange, "OutOfRange"),
  (.unimplemented, "Unimplemented"), (.internal, "Internal"), (.unavailable, "Unavailable"),
  (.dataLoss, "DataLoss"), (.unauthenticated, "Unauthenticated")]

/-- The name of a code. -/
def Code.name (c : Code) : String :=
  ((names.find? (·.1 = c)).map (·.2)).getD "Unknown"

/-- The code of a name. -/
def Code.ofName? (name : String) : Option Code :=
  (names.find? (·.2 = name)).map (·.1)

/-- The code and message with which a request failed. -/
structure Status where
  code : Code
  message : String
  deriving DecidableEq, Repr

/-- A status on one line, with empty details and metadata. -/
def Status.toText (s : Status) : String :=
  "status: " ++ s.code.name ++ ", message: " ++ Text.quoted s.message ++
    ", details: [], metadata: MetadataMap \x7b headers: \x7b\x7d \x7d"

end PodMachines
