import PodMachines.Session.Task

/-!
# Taking turns

Tasks take turns in the order in which they became ready. One that lets others go first is ready again when
nobody else is, and only when nobody is at all does time move on to the next moment that is waited for.
-/

namespace PodMachines.Session

/-- Tasks, and whose turns come next. -/
structure Schedule (α : Type) where
  session : Session
  tasks : List (Task α)
  ready : List Nat
  /-- Those that let others go first. -/
  deferred : List Nat

namespace Schedule
variable {α : Type}

/-- Courses that start together, in order. -/
def ofCourses (s : Session) (courses : List (Service.Course α)) : Schedule α :=
  ⟨s, courses.map .course, List.range courses.length, []⟩

/-- The tasks that were granted a lock and are not ready yet. -/
def granted (s : Schedule α) : List Nat :=
  (List.range s.tasks.length).filter fun i =>
    !s.ready.contains i && s.tasks[i]?.any fun t => t.isGranted s.session

/-- With the turn of a task taken. -/
def take (s : Schedule α) (i : Nat) : Schedule α :=
  match s.tasks[i]? with
  | none => s
  | some task =>
    let (task, session) := task.turn s.session
    let s := { s with session := session, tasks := s.tasks.set i task }
    let s := { s with ready := s.ready ++ s.granted }
    if task.yields && !s.deferred.contains i then { s with deferred := s.deferred ++ [i] } else s

/-- The next moment for which a task waits. -/
def nextTime? (s : Schedule α) : Option Nat :=
  (s.tasks.flatMap Task.timers).min?

/-- With time moved on to a moment, and ready whoever waited for it. -/
def moveTo (s : Schedule α) (time : Nat) : Schedule α :=
  let session := { s.session with pods := s.session.pods.pass (time - s.session.now) }
  { s with
    session := session
    ready := (List.range s.tasks.length).filter fun i =>
      s.tasks[i]?.any fun t => t.timers.any fun at_ => decide (at_ ≤ time) }

/-- The schedule after at most `most` turns. -/
def run : (most : Nat) → Schedule α → Schedule α
  | 0, s => s
  | most + 1, s =>
    match s.ready with
    | i :: rest => run most (take { s with ready := rest } i)
    | [] =>
      match s.deferred with
      | _ :: _ => run most { s with ready := s.deferred, deferred := [] }
      | [] =>
        match s.nextTime? with
        | some time => run most (s.moveTo time)
        | none => s

/-- The answer of a task at its end. -/
def answer? : Task α → Except String α
  | .ended a => .ok a
  | .broken why => .error why
  | _ => .error "still waiting"

/-- The answers of all tasks, unless one has broken down. -/
def answers (s : Schedule α) : Except String (List α) :=
  s.tasks.mapM answer?

end Schedule

/-- More turns than any session takes. -/
def patience : Nat := 0x10000000000000000

/-- What courses that start together answer. -/
def together {α : Type} (s : Session) (courses : List (Service.Course α)) :
    Except String (List α × Session) :=
  let done := (Schedule.ofCourses s courses).run patience
  done.answers.map fun answers => (answers, done.session)

end PodMachines.Session
