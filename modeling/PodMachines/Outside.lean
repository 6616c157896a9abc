import PodMachines.Backend.Request
import PodMachines.Image.Record
import PodMachines.Image.Reference
import PodMachines.Program

/-!
# The outside

What backends and connectors ask of the world around them: to run a tool, to read the clock and to wait, to
dial an agent, and to act on a simulated cloud or look into a simulated catalog.
-/

namespace PodMachines

/-- A call of a command line tool. -/
structure Command where
  program : String
  args : List String
  deriving DecidableEq, Repr

/-- How a command reads on one line. -/
def Command.toText (c : Command) : String :=
  " ".intercalate (c.program :: c.args)

/-- How a tool ended. -/
inductive Ending
  | exit (code : Nat)
  | signal (number : Nat)
  deriving DecidableEq, Repr

/-- What became of a tool that was started. -/
structure Ended where
  ending : Ending
  stdout : List UInt8
  stderr : List UInt8
  deriving DecidableEq, Repr

/-- A connection to an agent, by the order in which connections were made. -/
abbrev Connection := Nat

/-- A question to the outside. -/
inductive Ask
  /-- To run a tool to its end. -/
  | run (command : Command)
  /-- For the time in milliseconds. -/
  | clock
  /-- To wait. -/
  | sleep (milliseconds : Nat)
  /-- To open a connection to a remote agent. -/
  | dial (uri : String)
  /-- To connect to the simulated agent at an address. -/
  | meet (address : Address)
  /-- To close a connection. -/
  | hangUp (connection : Connection)
  /-- To act on the simulated cloud. -/
  | cloud (request : Backend.Request)
  /-- For the images that the simulated catalog has of a reference. -/
  | browse (reference : Image.Reference)
  deriving DecidableEq, Repr

/-- The reply to a question: of a tool that cannot be started and of an agent that cannot be dialed, why. -/
abbrev Ask.Reply : Ask → Type
  | .run _ => Except String Ended
  | .clock => Nat
  | .sleep _ => Unit
  | .dial _ => Except String Connection
  | .meet _ => Except Failure Connection
  | .hangUp _ => Unit
  | .cloud request => request.Answer
  | .browse _ => List Image.Record

/-- A computation that asks the outside. -/
abbrev Work := Program Ask Ask.Reply

namespace Work

/-- Asks for the reply. -/
def ask (question : Ask) : Work question.Reply :=
  Program.query question

/-- How many seconds the clock can count. -/
def clockLimit : Nat := 0x8000000000000000

/-- The time at which some milliseconds from now have passed. There is none that the clock cannot count. -/
def deadline (milliseconds : Nat) : Work Nat := do
  let now ← ask .clock
  if (now + milliseconds) / 1000 < clockLimit then pure (now + milliseconds)
  else .crash "overflow when adding duration to instant"

end Work
end PodMachines
