import PodMachines.Outside

/-!
# Connecting to agents

An agent is dialed at its machine's address, again and again while it is still starting: every two seconds, as
long as the next attempt would begin before the deadline. Simulated agents are met at once.
-/

namespace PodMachines.Agent

/-- Where agents are, and how long they are dialed. -/
structure Dialer where
  port : Nat
  /-- The time for all attempts, in milliseconds. -/
  timeout : Nat
  deriving DecidableEq, Repr

/-- How connections are made. -/
inductive Connector
  | dialing (dialer : Dialer)
  | meeting
  deriving DecidableEq, Repr

namespace Dialer

/-- How many milliseconds lie between two attempts. -/
def interval : Nat := 2000

/-- How many attempts there are at most. -/
def attempts (d : Dialer) : Nat :=
  d.timeout / interval + 1

/-- The place of the agent of a machine. -/
def uri (d : Dialer) (address : Address) : String :=
  match address with
  | .v4 .. => "http://" ++ address.toText ++ ":" ++ toString d.port
  | .v6 _ => "http://[" ++ address.toText ++ "]:" ++ toString d.port

/-- Dials up to a deadline, at most `most` times after the first; the last attempt's refusal counts. -/
def retry (uri : String) (deadline : Nat) : (most : Nat) → Work (Except Failure Connection)
  | 0 => do
    match ← Work.ask (.dial uri) with
    | .ok connection => pure (.ok connection)
    | .error why => pure (.error (.agentUnreachable uri why))
  | most + 1 => do
    match ← Work.ask (.dial uri) with
    | .ok connection => pure (.ok connection)
    | .error why =>
      let now ← Work.ask .clock
      if now + interval < deadline then
        Work.ask (.sleep interval)
        retry uri deadline most
      else pure (.error (.agentUnreachable uri why))

/-- A connection to the agent of a machine. -/
def connect (d : Dialer) (address : Address) : Work (Except Failure Connection) := do
  let deadline ← Work.deadline d.timeout
  retry (d.uri address) deadline d.attempts

end Dialer

/-- A connection to the agent of a machine. -/
def Connector.connect (c : Connector) (address : Address) : Work (Except Failure Connection) :=
  match c with
  | dialing d => d.connect address
  | meeting => Work.ask (.meet address)

end PodMachines.Agent
