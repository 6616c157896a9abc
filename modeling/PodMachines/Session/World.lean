import PodMachines.Agent.Simulated
import PodMachines.Backend.Cloud
import PodMachines.Outside
import PodMachines.Tool.Script

/-!
# A simulated outside

Scripted tools, a simulated cloud and catalog, and simulated agents. Nothing answers when it is dialed. What the
cloud and the agents' host answer next can be planned: a failure, a result, or that others go first.
-/

namespace PodMachines.Session

/-- What can be planned. -/
inductive Method
  | provision
  | destroy
  | addresses
  | state
  | connect
  deriving DecidableEq, Repr

/-- What is answered. -/
inductive Verdict
  /-- What the simulation itself answers. -/
  | usual
  | failure (f : Failure)
  | machine (id : String)
  | addresses (found : List Address)
  | state (s : Machine.State)
  | done
  deriving DecidableEq, Repr

/-- A planned answer, and how often others go first. -/
structure Plan where
  method : Method
  turns : Nat
  verdict : Verdict
  deriving DecidableEq, Repr

/-- An image of the simulated catalog, and the owner or project within which it is found. -/
structure Listing where
  qualifier : Option String
  record : Image.Record
  deriving DecidableEq, Repr

/-- A simulated outside. -/
structure World where
  script : Tool.Script
  cloud : Backend.Cloud
  plans : List Plan
  failConnect : Bool
  /-- The agents in the order in which connections to them were made. -/
  agents : List Agent.Simulated
  listings : List Listing
  /-- What the simulated catalog was asked. -/
  queries : List Image.Reference

namespace World

/-- Scripted tools, and nothing else. -/
def new (script : Tool.Script) (listings : List Listing) : World :=
  ⟨script, .empty, [], false, [], listings, []⟩

/-- What a question may be planned as. -/
def methodOf : Ask → Option Method
  | .cloud (.provision _) => some .provision
  | .cloud (.destroy _) => some .destroy
  | .cloud (.addresses _) => some .addresses
  | .cloud (.state _) => some .state
  | .meet _ => some .connect
  | _ => none

/-- The next plan for a question, and the world without it. -/
def plan (w : World) (q : Ask) : Plan × World :=
  match methodOf q with
  | none => (⟨.connect, 0, .usual⟩, w)
  | some method =>
    match w.plans.find? (·.method = method) with
    | none => (⟨method, 0, .usual⟩, w)
    | some p => (p, { w with plans := w.plans.eraseP (·.method = method) })

/-- What the simulated catalog has of a reference. -/
def found (w : World) (r : Image.Reference) : List Image.Record :=
  (w.listings.filter fun l => l.qualifier = r.qualifier && l.record.tags.contains r.name).map Listing.record

/-- A connection to a new agent. -/
def meet (w : World) (address : Address) : Except Failure Connection × World :=
  if w.failConnect then (.error (.agentUnreachable address.toText "connection refused"), w)
  else (.ok w.agents.length, { w with agents := w.agents ++ [.new address] })

/-- What the simulated cloud answers. -/
def cloudReply (w : World) (request : Backend.Request) : request.Answer × World :=
  let (answer, cloud) := w.cloud.serve request
  (answer, { w with cloud := cloud })

/-- The reply to a question as it is planned, and the world after it. -/
def reply (w : World) (now : Nat) (verdict : Verdict) : (q : Ask) → q.Reply × World
  | .run command =>
    let (result, script) := w.script.run command
    (result, { w with script := script })
  | .clock => (now, w)
  | .sleep _ => ((), w)
  | .dial _ => (.error "transport error", w)
  | .browse r => (w.found r, { w with queries := w.queries ++ [r] })
  | .hangUp connection =>
    ((), { w with agents := w.agents.modify connection fun a => { a with closes := a.closes + 1 } })
  | .meet address =>
    match verdict with
    | .failure f => (.error f, w)
    | _ => w.meet address
  | .cloud (.provision spec) =>
    match verdict with
    | .failure f => (.error f, w)
    | .machine id => (.ok ⟨id, spec.name⟩, w)
    | _ => w.cloudReply (.provision spec)
  | .cloud (.destroy machine) =>
    match verdict with
    | .failure f => (.error f, w)
    | .done => (.ok (), w)
    | _ => w.cloudReply (.destroy machine)
  | .cloud (.addresses machine) =>
    match verdict with
    | .failure f => (.error f, w)
    | .addresses found => (.ok found, w)
    | _ => w.cloudReply (.addresses machine)
  | .cloud (.state machine) =>
    match verdict with
    | .failure f => (.error f, w)
    | .state s => (.ok s, w)
    | _ => w.cloudReply (.state machine)

/-- What an agent answers, and the world after it was asked. -/
def forward (w : World) (connection : Connection) (request : Agent.Request) :
    Except Failure request.Answer × World :=
  match w.agents[connection]? with
  | some agent =>
    let (answer, agent) := agent.serve request
    (answer, { w with agents := w.agents.set connection agent })
  | none => (.error (.agent ⟨.unavailable, "agent connection closed"⟩), w)

/-- The reply to a question where nobody else is served meanwhile: waiting moves the clock. -/
def answerAlone (q : Ask) (s : World × Nat) : q.Reply × (World × Nat) :=
  let (w, now) := s
  let (p, w) := w.plan q
  let (r, w) := w.reply now p.verdict q
  match q with
  | .sleep milliseconds => ((), (w, now + milliseconds))
  | _ => (r, (w, now))

/-- What work comes to alone, the world after it, and how long it waited. -/
def alone {α : Type} (w : World) (work : Work α) (now : Nat) : Outcome α × World × Nat :=
  let (outcome, w, later) := work.run answerAlone (w, now)
  (outcome, w, later - now)

end World
end PodMachines.Session
