import PodMachines.Outside

/-!
# Scripted tools

Tools that answer from a script. A command takes the first reply whose texts all occur in it; a reply serves
once unless it is kept.
-/

namespace PodMachines.Tool

/-- What a tool answers, and to which commands. -/
structure Reply where
  /-- Texts that occur in the command. -/
  texts : List String
  ended : Ended
  /-- Whether the reply serves again. -/
  keep : Bool
  deriving DecidableEq, Repr

/-- What tools will answer, and what they were asked. -/
structure Script where
  /-- Whether tools can be found at all. -/
  installed : Bool
  replies : List Reply
  /-- The commands that were run, in order. -/
  calls : List Command
  deriving DecidableEq, Repr

namespace Script

/-- No tool can be found. -/
def missing : Script :=
  ⟨false, [], []⟩

/-- The tools that can be found. -/
def tools : List String :=
  ["aws", "gcloud", "VBoxManage"]

/-- Whether a text occurs in another. -/
def occurs (part : List Char) : List Char → Bool
  | [] => part.isEmpty
  | c :: rest => part.isPrefixOf (c :: rest) || occurs part rest

/-- Whether a reply is meant for a command. -/
def fits (command : Command) (r : Reply) : Bool :=
  r.texts.all fun part => occurs part.toList command.toText.toList

/-- The first reply for a command, and the replies that are left. -/
def take (command : Command) : List Reply → Option (Ended × List Reply)
  | [] => none
  | r :: rest =>
    if fits command r then some (r.ended, if r.keep then r :: rest else rest)
    else (take command rest).map fun (e, left) => (e, r :: left)

/-- The answer of a tool that has no reply. -/
def speechless : Ended :=
  ⟨.exit 99, [], "no scripted reply\n".toUTF8.toList⟩

/-- Whether a text can be handed to the operating system. -/
def isCText (s : String) : Bool :=
  !s.toList.contains '\x00'

/-- What becomes of a command: whether it can be started, and how it ends. -/
def run (s : Script) (command : Command) : Except String Ended × Script :=
  if !(command.program :: command.args).all isCText then (.error "nul byte found in provided data", s)
  else if !s.installed || !tools.contains command.program then
    (.error "No such file or directory (os error 2)", s)
  else
    let s := { s with calls := s.calls ++ [command] }
    match take command s.replies with
    | some (e, left) => (.ok e, { s with replies := left })
    | none => (.ok speechless, s)

end Script
end PodMachines.Tool
