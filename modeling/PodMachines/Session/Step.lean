import PodMachines.Session.Schedule

/-!
# Steps of a session

What can be done in a session: requests to the service, direct calls on the pods and on an agent, and changes of
the simulated outside; and what each answers.
-/

namespace PodMachines.Session

/-- A switch that makes requests fail. -/
inductive Switch
  | provision
  | destroy
  | state
  | addresses
  | connect
  deriving DecidableEq, Repr

/-- Something to be done. -/
inductive Action
  | request (r : Service.Request)
  | create (spec : Sandbox.Spec)
  | stop (id : String)
  | remove (id : String)
  | status (id : String)
  | address (id : String)
  | list (filter : Sandbox.Filter)
  | ids
  /-- Which catalog's images the pods can boot, and whether they do. -/
  | integration
  | enableImageBoot
  | integrate
  /-- To keep the connection to a sandbox's agent. -/
  | hold (id : String)
  | held (r : Agent.Request)
  | heldClose
  | advance (milliseconds : Nat)
  | machineState (id : String) (state : Machine.State)
  | switch (which : Switch) (on : Bool)
  | agentRefuses (agent : Nat) (status : Status)
  | agentLists (agent : Nat) (containers : List Message.Container)
  | plan (p : Plan)
  | inspect

/-- One step: something to be done, or several things together. -/
inductive Step
  | one (action : Action)
  | together (actions : List Action)

/-- What the simulated cloud and the agents have seen. -/
structure Inspection where
  /-- The cloud, where there is a simulated one. -/
  cloud : Option Backend.Cloud
  agents : List Agent.Simulated

/-- What something that was done answers. -/
inductive Answer
  | nothing
  | failed (f : Failure)
  | refused (s : Status)
  | response (r : Service.Request) (value : r.Response)
  | agent (r : Agent.Request) (value : r.Answer)
  | text (s : String)
  | status (s : Sandbox.Status)
  | statuses (l : List Sandbox.Status)
  | texts (l : List String)
  | integration (i : Option (String × Bool))
  | integrated (b : Option Bool)
  | inspection (i : Inspection)
  | several (answers : List Answer)

/-- What a call answers. -/
def Answer.ofResult {α : Type} (f : α → Answer) : Except Failure α → Answer
  | .ok a => f a
  | .error e => .failed e

/-- The course of an action, if it has one. -/
def Action.course (s : Session) : Action → Option (Service.Course Answer)
  | request r => some do
    match ← Service.serve s.pods.backend r with
    | .ok value => pure (.response r value)
    | .error refusal => pure (.refused refusal)
  | create spec => some do pure (.ofResult .text (← Service.create spec))
  | stop id => some do pure (.ofResult (fun _ => .nothing) (← Service.Course.ask (.pods (.stop id))))
  | remove id => some do pure (.ofResult (fun _ => .nothing) (← Service.Course.ask (.pods (.remove id))))
  | status id => some do pure (.ofResult .status (← Service.Course.ask (.pods (.status id))))
  | address id => some do
    pure (.ofResult (fun a => .text a.toText) (← Service.Course.ask (.pods (.address id))))
  | list filter => some do pure (.statuses (← Service.Course.ask (.pods (.list filter))))
  | ids => some do pure (.texts (← Service.Course.ask (.pods .ids)))
  | integrate => some do
    match ← Service.Course.ask .images with
    | none => pure (.integrated none)
    | some images => pure (.integrated (some (← Service.integrate images s.pods.catalog)))
  | held r => s.held.map fun connection => do
    pure (.ofResult (.agent r) (← Service.Course.ask (.forward connection r)))
  | heldClose => s.held.map fun connection => do
    Service.Course.ask (.close connection)
    pure .nothing
  | _ => none

/-- With the connection to a sandbox's agent held. -/
def holdAgent (s : Session) (id : String) : Answer × Session :=
  match (s.pods.store.directory.find? id).bind (s.pods.store.records[·]?) with
  | some r => (.nothing, { s with held := some r.agent })
  | none => (.failed (.noSandbox id), s)

/-- With a switch of the cloud, or of the agents' host, turned. -/
def World.turn (w : World) (which : Switch) (on : Bool) : World :=
  match which with
  | .provision => { w with cloud := { w.cloud with failProvision := on } }
  | .destroy => { w with cloud := { w.cloud with failDestroy := on } }
  | .state => { w with cloud := { w.cloud with failState := on } }
  | .addresses => { w with cloud := { w.cloud with withholdAddresses := on } }
  | .connect => { w with failConnect := on }

/-- The name of the backend of the simulated cloud. -/
def simulatedName : String := (Backend.simulated none).name

/-- What has been seen. -/
def inspection (s : Session) : Inspection :=
  ⟨if s.pods.backend = simulatedName then some s.world.cloud else none, s.world.agents⟩

/-- An action that takes no time; none if it needs a connection and none is held. -/
def Action.direct (s : Session) : Action → Option (Answer × Session)
  | integration => some (.integration (s.pods.catalog.map fun c => (c, s.pods.store.imageBoot)), s)
  | enableImageBoot =>
    some (.nothing, if s.pods.catalog.isSome then { s with pods := s.pods.enableImageBoot } else s)
  | hold id => some (s.holdAgent id)
  | advance milliseconds => some (.nothing, { s with pods := s.pods.pass milliseconds })
  | machineState id state =>
    let cloud := { s.world.cloud with machines := s.world.cloud.machines.insert id state }
    some (.nothing, { s with world := { s.world with cloud := cloud } })
  | switch which on => some (.nothing, { s with world := s.world.turn which on })
  | agentRefuses agent refusal =>
    let agents := s.world.agents.modify agent fun a => { a with refusal := some refusal }
    some (.nothing, { s with world := { s.world with agents := agents } })
  | agentLists agent containers =>
    let agents := s.world.agents.modify agent fun a => { a with containers := containers }
    some (.nothing, { s with world := { s.world with agents := agents } })
  | plan p => some (.nothing, { s with world := { s.world with plans := s.world.plans ++ [p] } })
  | inspect => some (.inspection s.inspection, s)
  | _ => none

/-- The sandbox that an action made. -/
def Action.made : Action → Answer → Option String
  | request (.runPod ..), .response (.runPod ..) id => some id
  | create _, .text id => some id
  | _, _ => none

/-- With the sandboxes that actions made. -/
def noteMade (s : Session) (actions : List Action) (answers : List Answer) : Session :=
  { s with created := s.created ++ (actions.zip answers).filterMap fun (action, answer) => action.made answer }

/-- Several actions: those that take no time at once and in order, the others together. -/
def start (s : Session) : List Action → Except String (List (Service.Course Answer) × Session)
  | [] => .ok ([], s)
  | action :: rest =>
    match action.course s with
    | some course => (start s rest).map fun (courses, s) => (course :: courses, s)
    | none =>
      match action.direct s with
      | some (answer, s) => (start s rest).map fun (courses, s) => (pure answer :: courses, s)
      | none => .error "nothing held"

/-- Several actions together, and what they answer. -/
def perform (s : Session) (actions : List Action) : Except String (List Answer × Session) := do
  let (courses, s) ← s.start actions
  let (answers, s) ← s.together courses
  .ok (answers, s.noteMade actions answers)

/-- A step of a session, and what it answers; why it breaks down if it does. -/
def step (s : Session) : Step → Except String (Answer × Session)
  | .one action => (s.perform [action]).map fun (answers, s) => (answers.headD .nothing, s)
  | .together actions => (s.perform actions).map fun (answers, s) => (.several answers, s)

end PodMachines.Session
