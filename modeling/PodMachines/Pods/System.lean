import PodMachines.Pods.Point

/-!
# The pods

All calls on the pods and what they share. A call starts, its strands advance one point at a time in any order,
what they ask is answered at any later time, and time passes. That a call is given up before its end, because the
client of its request has gone away, is left out.
-/

namespace PodMachines.Pods

/-- A call that was started, and where it stands. -/
structure Running where
  call : Call
  point : Point call

/-- The pods. -/
structure System where
  /-- The name of the backend. -/
  backend : String
  /-- The catalog whose images the backend can boot. -/
  catalog : Option String
  store : Store
  /-- The calls by their numbers. -/
  calls : List Running

namespace System

/-- The pods of a backend, without sandboxes. -/
def new (backend : String) (catalog : Option String) (now : Nat) : System :=
  ⟨backend, catalog, .empty now, []⟩

/-- With a call started; its number is the count of the calls before it. -/
def start (s : System) (c : Call) : System :=
  { s with calls := s.calls ++ [⟨c, .initial c⟩] }

/-- With a call at a new point. -/
def place (s : System) (number : Nat) {c : Call} (next : Point c × Store) : System :=
  { s with store := next.2, calls := s.calls.set number ⟨c, next.1⟩ }

/-- The next state where a strand has nothing to wait for. -/
def advance (s : System) (me : Strand) : Option System :=
  match s.calls[me.call]? with
  | some running => (running.point.advance me s.store).map (s.place me.call)
  | none => none

/-- What a strand asks of others. -/
def request? (s : System) (me : Strand) : Option Request :=
  s.calls[me.call]?.bind fun running => running.point.request? me s.store

/-- The next state where a strand gets the answer to what it asks. -/
def answer (s : System) (me : Strand) (request : Request) (a : request.Answer) : Option System :=
  if s.request? me = some request then
    match s.calls[me.call]? with
    | some running => (running.point.answer s.backend me s.store request a).map (s.place me.call)
    | none => none
  else none

/-- With some milliseconds passed. -/
def pass (s : System) (milliseconds : Nat) : System :=
  { s with store := { s.store with now := s.store.now + milliseconds } }

/-- With images of the catalog booted from now on. -/
def enableImageBoot (s : System) : System :=
  { s with store := { s.store with imageBoot := true } }

/-- The end of a call. -/
def result? (s : System) (number : Nat) (c : Call) : Option c.Result :=
  match s.calls[number]? with
  | some ⟨call, .finished result⟩ => if h : call = c then some (h ▸ result) else none
  | _ => none

/-- How many strands a call has. -/
def strandCount (s : System) (number : Nat) : Nat :=
  match s.calls[number]? with
  | some ⟨_, .gathering checks⟩ => checks.length
  | some ⟨_, .finished _⟩ | none => 0
  | some _ => 1

/-- One step of the pods. -/
inductive Step : System → System → Prop
  | start (c : Call) : Step s (s.start c)
  | advance (me : Strand) (h : s.advance me = some t) : Step s t
  | answer (me : Strand) (request : Request) (a : request.Answer) (h : s.answer me request a = some t) : Step s t
  | pass (milliseconds : Nat) : Step s (s.pass milliseconds)
  | enableImageBoot : Step s s.enableImageBoot

/-- The states that the pods can come to. -/
inductive Reachable (backend : String) (catalog : Option String) (now : Nat) : System → Prop
  | new : Reachable backend catalog now (.new backend catalog now)
  | step (h : Reachable backend catalog now s) (hs : Step s t) : Reachable backend catalog now t

end System
end PodMachines.Pods
