import PodMachines.Session.State

/-!
# Tasks

Several requests may be under way at once. Each is a task, which goes on as far as it can whenever it has its
turn, and then waits: for a time, for others to have their turns, or for a lock.
-/

namespace PodMachines.Session

/-! ### Work under way -/

/-- What work waits for. -/
inductive Waiting (α : Type) where
  /-- A time. -/
  | time (at_ : Nat) (rest : Work α)
  /-- Others' turns, and then the planned answer. -/
  | turns (left : Nat) (question : Ask) (verdict : Verdict) (next : question.Reply → Work α)

/-- How far work has come. -/
inductive Progress (α : Type) where
  | ended (value : α)
  | crashed (why : String)
  | waiting (w : Waiting α)

/-- Work as far as it goes at once. -/
def goOn {α : Type} (now : Nat) : Work α → World → Progress α × World
  | .done value, w => (.ended value, w)
  | .crash why, w => (.crashed why, w)
  | Program.ask (.sleep milliseconds) next, w => (.waiting (.time (now + milliseconds) (next ())), w)
  | Program.ask q next, w =>
    let (p, w) := w.plan q
    if p.turns = 0 then
      let (r, w) := w.reply now p.verdict q
      goOn now (next r) w
    else (.waiting (.turns p.turns q p.verdict next), w)

/-- Work that has waited, as far as it goes at its next turn. -/
def Waiting.resume {α : Type} (now : Nat) : Waiting α → World → Progress α × World
  | .time at_ rest, w => if at_ ≤ now then goOn now rest w else (.waiting (.time at_ rest), w)
  | .turns left q verdict next, w =>
    if left ≤ 1 then
      let (r, w) := w.reply now verdict q
      goOn now (next r) w
    else (.waiting (.turns (left - 1) q verdict next), w)

/-- The time for which work waits. -/
def Waiting.timer? {α : Type} : Waiting α → Option Nat
  | .time at_ _ => some at_
  | .turns .. => none

/-! ### Calls under way -/

/-- Work that is under way for a strand of a call. -/
structure Flight where
  part : Nat
  request : Pods.Request
  waiting : Waiting request.Answer

/-- A call on the pods that is under way. -/
structure Calling where
  number : Nat
  call : Pods.Call
  flights : List Flight
  /-- Why its work has broken down. -/
  broken : Option String

/-- How far work for a strand of a call has come. -/
def Calling.progress (c : Calling) (s : Session) (part : Nat) (request : Pods.Request) :
    (r : Pods.Request) × Progress r.Answer × World :=
  match c.flights.find? (·.part = part) with
  | some f => ⟨f.request, f.waiting.resume s.now s.world⟩
  | none => ⟨request, goOn s.now (s.workOf request) s.world⟩

/-- Whether a call has come to the checks of a list. -/
def isGathering (s : Session) (number : Nat) : Bool :=
  match s.pods.calls[number]? with
  | some ⟨_, .gathering _⟩ => true
  | _ => false

/-- More points than a strand has. -/
def longest : Nat := 16

/-- A strand of a call as far as it goes at once; the strand of a list only up to its checks. -/
def Calling.drive (part : Nat) (checks : Bool) : (most : Nat) → Calling → Session → Calling × Session
  | 0, c, s => (c, s)
  | most + 1, c, s =>
    let me : Pods.Strand := ⟨c.number, part⟩
    if !checks && isGathering s c.number then (c, s)
    else
      match s.pods.advance me with
      | some pods => drive part checks most c { s with pods := pods }
      | none =>
        match s.pods.request? me with
        | none => (c, s)
        | some request =>
          let ⟨request, progress, world⟩ := c.progress s part request
          let s := { s with world := world }
          let others := c.flights.filter (·.part ≠ part)
          match progress with
          | .crashed why => ({ c with flights := others, broken := some why }, s)
          | .waiting w => ({ c with flights := others ++ [⟨part, request, w⟩] }, s)
          | .ended a =>
            match s.pods.answer me request a with
            | some pods => drive part checks most { c with flights := others } { s with pods := pods }
            | none => ({ c with flights := others }, s)

/-- The checks of a list, one after the other, each as far as it goes at once. -/
def Calling.driveChecks (c : Calling) (s : Session) : Calling × Session :=
  (List.range (s.pods.strandCount c.number)).foldl (fun (c, s) part => c.drive part true longest s) (c, s)

/-- A call as far as it goes at once. -/
def Calling.turn (c : Calling) (s : Session) : Calling × Session :=
  let (c, s) := c.drive 0 false longest s
  if isGathering s c.number then c.driveChecks s else (c, s)

/-! ### Tasks -/

/-- A request that is under way, and what it will answer. -/
inductive Task (α : Type) where
  /-- At its start. -/
  | course (rest : Service.Course α)
  /-- Waiting for a call on the pods. -/
  | calling (c : Calling) (next : c.call.Result → Service.Course α)
  /-- Waiting for the catalog of images. -/
  | finding (w : Waiting (Except Failure (List Image.Record)))
      (next : Except Failure (List Image.Record) → Service.Course α)
  | ended (answer : α)
  | broken (why : String)

/-- A course to its end, if it need not wait on the way. -/
def straight {β : Type} : Service.Course β → Session → Option (β × Session)
  | .done value, s => some (value, s)
  | Program.ask (.pods call) next, s =>
    let (number, s) := s.startCall call
    let (c, s) := Calling.turn ⟨number, call, [], none⟩ s
    match c.broken, s.pods.result? c.number call with
    | none, some result => straight (next result) s
    | _, _ => none
  | Program.ask (.forward connection request) next, s =>
    let (answer, world) := s.world.forward connection request
    straight (next answer) { s with world := world }
  | _, _ => none

/-- With the inquiries from a number on come to their ends, after the containers of so many sandboxes. -/
def inquireAll (filter : Option Message.ContainerFilter) : (k : Nat) → List String → Session → Option Session
  | _, [], s => some s
  | k, id :: rest, s =>
    (straight (Service.inquiry filter id) s).bind fun (result, s) =>
      inquireAll filter (k + 1) rest { s with inquiries := s.inquiries.set k (some result) }

/-- With inquiries after the containers of sandboxes begun, and come to their ends. The agents here answer at once, so
    that each inquiry has ended when the next has its turn. -/
def inquire (s : Session) (filter : Option Message.ContainerFilter) (ids : List String) : Option Session :=
  inquireAll filter s.inquiries.length ids { s with inquiries := s.inquiries ++ ids.map fun _ => none }

namespace Task
variable {α : Type}

/-- What is left of a task that waits for a call, and the call's result if it has one. -/
def afterCall (call : Pods.Call) (next : call.Result → Service.Course α) (c : Calling) (s : Session) :
    Task α ⊕ call.Result :=
  match c.broken, s.pods.result? c.number call with
  | some why, _ => .inl (.broken why)
  | none, some result => .inr result
  | none, none => if h : c.call = call then .inl (.calling c (h ▸ next)) else .inl (.broken "")

/-- A course as far as it goes at once. -/
def follow : Service.Course α → Session → Task α × Session
  | .done answer, s => (.ended answer, s)
  | .crash why, s => (.broken why, s)
  | Program.ask (.pods call) next, s =>
    let (number, s) := s.startCall call
    let (c, s) := Calling.turn ⟨number, call, [], none⟩ s
    match afterCall call next c s with
    | .inl task => (task, s)
    | .inr result => follow (next result) s
  | Program.ask (.find reference) next, s =>
    let (progress, world) := goOn s.now (s.findWork reference) s.world
    let s := { s with world := world }
    match progress with
    | .ended found => follow (next found) s
    | .crashed why => (.broken why, s)
    | .waiting w => (.finding w next, s)
  | Program.ask (.inquire filter ids) next, s =>
    match s.inquire filter ids with
    | some t => follow (next (List.range' s.inquiries.length ids.length)) t
    | none => (.broken "", s)
  | Program.ask act next, s =>
    match s.reply act with
    | some (r, s) => follow (next r) s
    | none => (.broken "", s)

/-- A task at its turn. -/
def turn : Task α → Session → Task α × Session
  | course rest, s => follow rest s
  | calling c next, s =>
    let (c', s) := c.turn s
    match afterCall c.call next c' s with
    | .inl task => (task, s)
    | .inr result => follow (next result) s
  | finding w next, s =>
    let (progress, world) := w.resume s.now s.world
    let s := { s with world := world }
    match progress with
    | .ended found => follow (next found) s
    | .crashed why => (.broken why, s)
    | .waiting w => (.finding w next, s)
  | ended answer, s => (.ended answer, s)
  | broken why, s => (.broken why, s)

/-- The times for which a task waits. -/
def timers : Task α → List Nat
  | calling c _ => c.flights.filterMap fun f => f.waiting.timer?
  | finding w _ => w.timer?.toList
  | _ => []

/-- Whether a task lets others go first. -/
def yields : Task α → Bool
  | calling c _ => c.flights.any fun f => f.waiting.timer?.isNone
  | finding w _ => w.timer?.isNone
  | _ => false

/-- Whether a lock was granted for which a task waited. -/
def isGranted (s : Session) : Task α → Bool
  | calling c _ =>
    (List.range (s.pods.strandCount c.number)).any fun part => (s.pods.advance ⟨c.number, part⟩).isSome
  | _ => false

end Task
end PodMachines.Session
