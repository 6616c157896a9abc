import PodMachines.Backend.Request
import PodMachines.Table
import PodMachines.Text.Split

/-!
# The simulated cloud

Machines in memory, numbered as they are made, with switches that make requests fail.
-/

namespace PodMachines.Backend

/-- Machines in memory. -/
structure Cloud where
  /-- How many machines were made. -/
  made : Nat
  /-- The machines that were not destroyed, and their states. -/
  machines : Table Machine.State
  /-- What was asked for, in order. -/
  asked : List Machine.Spec
  destroyCalls : Nat
  stateCalls : Nat
  failProvision : Bool
  failDestroy : Bool
  failState : Bool
  withholdAddresses : Bool

namespace Cloud

/-- No machines. -/
def empty : Cloud :=
  ⟨0, .empty, [], 0, 0, false, false, false, false⟩

/-- The address of a machine: its number, where its id ends in one that fits in a byte. -/
def address (id : String) : Address :=
  .v4 10 0 0 ((Text.readSigned 10 Text.byteLimit (Text.afterLast '-' id.toList)).getD 0).toUInt8

/-- Makes a machine. -/
def provision (c : Cloud) (spec : Machine.Spec) : Except Failure Machine.Handle × Cloud :=
  let c := { c with asked := c.asked ++ [spec] }
  if c.failProvision then (.error (.provision "fake" "quota exceeded"), c)
  else
    let id := "vm-" ++ toString (c.made + 1)
    (.ok ⟨id, spec.name⟩, { c with made := c.made + 1, machines := c.machines.insert id .running })

/-- Destroys a machine. -/
def destroy (c : Cloud) (id : String) : Except Failure Unit × Cloud :=
  let c := { c with destroyCalls := c.destroyCalls + 1 }
  if c.failDestroy then (.error (.destroy id "VM is locked"), c)
  else (.ok (), { c with machines := c.machines.erase id })

/-- Tells the state of a machine. -/
def state (c : Cloud) (id : String) : Except Failure Machine.State × Cloud :=
  let c := { c with stateCalls := c.stateCalls + 1 }
  if c.failState then (.error (.backendCall "fake" "throttled"), c)
  else (.ok ((c.machines.find? id).getD .terminated), c)

/-- What the cloud answers, and the cloud after it was asked. -/
def serve (c : Cloud) : (request : Request) → request.Answer × Cloud
  | .provision spec => c.provision spec
  | .destroy machine => c.destroy machine.id
  | .addresses machine => (.ok (if c.withholdAddresses then [] else [address machine.id]), c)
  | .state machine => c.state machine.id

end Cloud
end PodMachines.Backend
