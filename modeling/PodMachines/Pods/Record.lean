import PodMachines.Pods.Call

/-!
# Sandbox records

What is kept of a sandbox: what it was made with, and behind a lock whether it is ready, the latest known state
of its machine, and whether it was removed. The lock is granted in the order in which it is asked for.
-/

namespace PodMachines.Pods

/-- A thread of control: a call, or one of the checks that a list makes. -/
structure Strand where
  /-- The call's number. -/
  call : Nat
  /-- Which check of a list it is; zero otherwise. -/
  part : Nat
  deriving DecidableEq, Repr

/-- A lock: who holds it, and who waits for it, the longest waiting first. -/
structure Lock where
  holder : Option Strand
  waiting : List Strand
  deriving DecidableEq, Repr

namespace Lock

/-- Nobody holds the lock. -/
def free : Lock :=
  ⟨none, []⟩

/-- The lock after a strand has asked for it. -/
def request (l : Lock) (me : Strand) : Lock :=
  match l.holder with
  | none => ⟨some me, l.waiting⟩
  | some other => ⟨some other, l.waiting ++ [me]⟩

/-- The lock after its holder has let it go. -/
def release (l : Lock) : Lock :=
  match l.waiting with
  | [] => free
  | next :: rest => ⟨some next, rest⟩

end Lock

/-- What is kept of a sandbox. -/
structure Record where
  id : String
  spec : Sandbox.Spec
  /-- The time on the one clock, where clients are told nanoseconds of the calendar's. -/
  createdAt : Nat
  address : Address
  machine : Machine.Handle
  agent : Connection
  lifecycle : Sandbox.State
  /-- The latest known state of the machine. -/
  sample : Machine.State
  /-- When the sample was taken. -/
  lastChecked : Nat
  /-- Whether the machine is destroyed and the agent closed. -/
  removed : Bool
  lock : Lock
  deriving DecidableEq

namespace Record

/-- The record of a new sandbox, which is ready and whose machine runs. -/
def new (spec : Sandbox.Spec) (machine : Machine.Handle) (address : Address) (agent : Connection) (now : Nat) :
    Record where
  id := machine.id
  spec := spec
  createdAt := now
  address := address
  machine := machine
  agent := agent
  lifecycle := .ready
  sample := .running
  lastChecked := now
  removed := false
  lock := .free

/-- How many milliseconds a sample stays fresh. -/
def freshness : Nat := 30000

/-- Whether the sample is too old. -/
def isStale (r : Record) (now : Nat) : Bool :=
  freshness < now - r.lastChecked

/-- With a new sample. -/
def sampled (r : Record) (sample : Machine.State) (now : Nat) : Record :=
  { r with sample := sample, lastChecked := now }

/-- Not ready any more if its machine was not running when it was last seen. -/
def downgraded (r : Record) : Record :=
  if r.sample.isRunning then r else { r with lifecycle := .notReady }

/-- What is reported of the sandbox. -/
def snapshot (r : Record) : Sandbox.Status :=
  ⟨r.id, r.spec, r.createdAt, r.address, r.lifecycle, r.sample⟩

/-- With its lock let go. -/
def released (r : Record) : Record :=
  { r with lock := r.lock.release }

end Record
end PodMachines.Pods
