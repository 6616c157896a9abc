import PodMachines.Backend
import PodMachines.Config
import PodMachines.Tool

/-!
# Machines of VirtualBox

VirtualBox is driven through the tool `VBoxManage`. A machine is a clone of the configured one, bridged to an
interface of the host; one that cannot be started is deleted. Its address is polled for, every two seconds and
within the configured time.
-/

namespace PodMachines.Backend.VirtualBox
open Machine

/-- The name of the backend. -/
def name : String := "virtualbox"

/-- A command of the tool. -/
def command (args : List String) : Command :=
  ⟨"VBoxManage", args⟩

/-- Deletes a machine. -/
def unregister (id : String) : Work (Except CommandFailure String) :=
  (command ["unregistervm", id, "--delete"]).run

/-- Bridges a clone and starts it. -/
def bridgeAndStart (c : Config.VirtualBox) (id : String) : Work (Except CommandFailure Unit) := do
  match ← (command ["modifyvm", id, "--nic1", "bridged", "--bridgeadapter1", c.netDevice]).run with
  | .error f => pure (.error f)
  | .ok _ =>
    match ← (command ["startvm", id, "--type", "headless"]).run with
    | .error f => pure (.error f)
    | .ok _ => pure (.ok ())

/-- Clones a machine and starts the clone. -/
def provision (c : Config.VirtualBox) (spec : Spec) : Work (Except Failure Handle) := do
  match ← (command ["clonevm", c.vmSrc, "--name", spec.name, "--register"]).run with
  | .error f => pure (.error (.provision name f.message))
  | .ok _ =>
    match ← bridgeAndStart c spec.name with
    | .ok () => pure (.ok ⟨spec.name, spec.name⟩)
    | .error f =>
      let _ ← unregister spec.name
      pure (.error (.provision name f.message))

/-- Powers a machine off, if it is on, and deletes it. -/
def destroy (id : String) : Work (Except Failure Unit) := do
  let _ ← (command ["controlvm", id, "poweroff"]).run
  match ← unregister id with
  | .ok _ => pure (.ok ())
  | .error f => pure (.error (.destroy id f.message))

/-- How many milliseconds lie between two polls. -/
def pollInterval : Nat := 2000

/-- How many polls there are at most within some seconds. -/
def pollCount (seconds : Nat) : Nat :=
  (seconds + 1) / 2 + 1

/-- The guest property that holds a machine's address. -/
def addressProperty : String := "/VirtualBox/GuestInfo/Net/0/V4/IP"

/-- The failure of a machine that reported no address in time. -/
def noAddress (c : Config.VirtualBox) (id : String) : Failure :=
  .network id ("guest did not report an address within " ++ toString c.ipWaitSecs.toNat ++ "s")

/-- Polls for the address of a machine up to a deadline, at most `most` times. -/
def poll (c : Config.VirtualBox) (id : String) (deadline : Nat) :
    (most : Nat) → Work (Except Failure (List Address))
  | 0 => pure (.error (noAddress c id))
  | most + 1 => do
    match ← (command ["guestproperty", "get", id, addressProperty]).run with
    | .error f => pure (.error (.network id f.message))
    | .ok output =>
      match (guestProperty? output).bind Address.ofText? with
      | some address => pure (.ok [address])
      | none =>
        let now ← Work.ask .clock
        if deadline ≤ now then pure (.error (noAddress c id))
        else
          Work.ask (.sleep pollInterval)
          poll c id deadline most

/-- The address of a machine. -/
def addresses (c : Config.VirtualBox) (id : String) : Work (Except Failure (List Address)) := do
  let deadline ← Work.deadline (c.ipWaitSecs.toNat * 1000)
  poll c id deadline (pollCount c.ipWaitSecs.toNat)

/-- The state of a machine. -/
def state (id : String) : Work (Except Failure State) := do
  match ← (command ["showvminfo", id, "--machinereadable"]).run with
  | .error f => pure (.error (.backendCall name f.message))
  | .ok info =>
    match State.ofVirtualBoxInfo? info with
    | some s => pure (.ok s)
    | none => pure (.error (.backendCall name ("no VMState in showvminfo output for " ++ id)))

/-- Serves a request. -/
def serve (c : Config.VirtualBox) : (request : Request) → Work request.Answer
  | .provision spec => provision c spec
  | .destroy machine => destroy machine.id
  | .addresses machine => addresses c machine.id
  | .state machine => state machine.id

/-- The backend of VirtualBox, which boots no images of catalogs. -/
def backend (c : Config.VirtualBox) : Backend :=
  ⟨name, none, serve c⟩

end PodMachines.Backend.VirtualBox
