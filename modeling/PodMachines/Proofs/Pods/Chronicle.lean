import PodMachines.Pods.System

/-! What is noted of a run of the pods: what strands ask and are told, when they go on with a record's lock, what
    their checks report and how calls end. The notes of one record are its chronicle. Main statement: the states
    that runs come to are the reachable ones. -/

namespace PodMachines.Pods

/-- What makes the pods go on. -/
inductive Move
  | start (c : Call)
  | advance (me : Strand)
  | answer (me : Strand) (request : Request) (a : request.Answer)
  | pass (milliseconds : Nat)
  | enableImageBoot

/-- The strand that makes a move. -/
def Move.strand? : Move → Option Strand
  | .advance me | .answer me _ _ => some me
  | _ => none

/-- What is noted of a strand. -/
inductive Deed
  /-- It gets an answer. -/
  | hears (request : Request) (a : request.Answer)
  /-- It goes on with the lock that it waited for. -/
  | locks
  /-- It asks others. -/
  | asks (request : Request)
  /-- Its check ends: what it reports, none of a removed sandbox. -/
  | reports (status : Option Sandbox.Status)
  /-- Its call ends. -/
  | ends (c : Call) (result : c.Result)

/-- A note: when, of which strand, and at which record. -/
structure Note where
  time : Nat
  strand : Strand
  record : Option Nat
  deed : Deed

/-! ### What a step is noted as -/

/-- The record for which a call visits the directory. -/
def Visit.record? : Visit → Option Nat
  | .lookup => none
  | .enroll _ record | .forget _ record => some record

def Check.record? : Check → Option Nat
  | .arriving record | .queued record | .refreshing record => some record
  | .settled _ => none

namespace Point
variable {c : Call}

def check? (me : Strand) : Point c → Option Check
  | .checking check => some check
  | .gathering checks => checks[me.part]?
  | _ => none

def record? (me : Strand) (p : Point c) : Option Nat :=
  match p with
  | .entering visit | .inside visit => visit.record?
  | .arriving record | .queued record | .destroying record | .closing record => some record
  | p => (p.check? me).bind Check.record?

/-- Whether a strand goes on only with the lock of a record. -/
def waits (me : Strand) (p : Point c) : Bool :=
  match p with
  | .queued _ => true
  | p => match p.check? me with
    | some (.queued _) => true
    | _ => false

def ending : Point c → List Deed
  | .finished result => [.ends c result]
  | _ => []

/-- What is noted of a strand that goes on, besides what it hears. `report` is how its check ended, if it did. -/
def deeds (me : Strand) (p : Point c) (next : Point c × Store) (report : Option (Option Sandbox.Status)) : List Deed :=
  (if p.waits me then [.locks] else []) ++ ((next.1.request? me next.2).map .asks).toList ++
    (report.map .reports).toList ++ next.1.ending

/-- The notes of what a strand does on its way from one point to the next. -/
def notes (time : Nat) (me : Strand) (p q : Point c) (ds : List Deed) : List Note :=
  ds.map fun d => ⟨time, me, (p.record? me).or (q.record? me), d⟩

def ended : Point c → Bool
  | .finished _ => true
  | _ => false

theorem ended_iff {p : Point c} : p.ended = true ↔ ∃ result, p = .finished result := by
  cases p <;> simp [ended]

/-- How a strand's check ends that has nothing to wait for. -/
def advanceReport (me : Strand) (s : Store) (p : Point c) : Option (Option Sandbox.Status) :=
  (p.check? me).bind fun check => (check.advance me s).bind fun (next, _) => next.report?

/-- How a strand's check ends that is answered. -/
def answerReport (me : Strand) (s : Store) (request : Request) (a : request.Answer) (p : Point c) :
    Option (Option Sandbox.Status) :=
  (p.check? me).bind fun check => (check.answer s request a).bind fun (next, _) => next.report?

def advanceNotes (me : Strand) (s : Store) (p : Point c) : List Note :=
  match p.advance me s with
  | some next => notes s.now me p next.1 (p.deeds me next (p.advanceReport me s))
  | none => []

def answerNotes (backend : String) (me : Strand) (s : Store) (request : Request) (a : request.Answer) (p : Point c) :
    List Note :=
  match p.answer backend me s request a with
  | some next => notes s.now me p next.1 (.hears request a :: p.deeds me next (p.answerReport me s request a))
  | none => []

end Point

/-! ### Runs -/

namespace System

/-- The next state, if the move can be made. -/
def move? (s : System) : Move → Option System
  | .start c => some (s.start c)
  | .advance me => s.advance me
  | .answer me request a => s.answer me request a
  | .pass milliseconds => some (s.pass milliseconds)
  | .enableImageBoot => some s.enableImageBoot

def notes (s : System) : Move → List Note
  | .advance me =>
    match s.calls[me.call]? with
    | some running => running.point.advanceNotes me s.store
    | none => []
  | .answer me request a =>
    match s.calls[me.call]? with
    | some running => running.point.answerNotes s.backend me s.store request a
    | none => []
  | .start _ | .pass _ | .enableImageBoot => []

def Idle (s : System) : Prop :=
  ∀ running ∈ s.calls, ∃ result, running.point = .finished result

instance (s : System) : Decidable s.Idle :=
  decidable_of_iff (∀ running ∈ s.calls, running.point.ended = true)
    (forall_congr' fun _ => forall_congr' fun _ => Point.ended_iff)

end System

/-- A run from one state to another, and its notes. -/
inductive Run (s : System) : List Note → System → Prop
  | rest : Run s [] s
  | move {log : List Note} {t u : System} (h : Run s log t) (m : Move) (hm : t.move? m = some u) :
      Run s (log ++ t.notes m) u

theorem step_iff {s t : System} : System.Step s t ↔ ∃ m, s.move? m = some t := by
  constructor
  · intro h
    cases h with
    | start c => exact ⟨.start c, rfl⟩
    | advance me h => exact ⟨.advance me, h⟩
    | answer me request a h => exact ⟨.answer me request a, h⟩
    | pass milliseconds => exact ⟨.pass milliseconds, rfl⟩
    | enableImageBoot => exact ⟨.enableImageBoot, rfl⟩
  · rintro ⟨m, h⟩
    cases m with
    | start c => cases h; exact .start c
    | advance me => exact .advance me h
    | answer me request a => exact .answer me request a h
    | pass milliseconds => cases h; exact .pass milliseconds
    | enableImageBoot => cases h; exact .enableImageBoot

namespace Run
variable {s t u : System} {log more : List Note}

theorem trans (h₁ : Run s log t) (h₂ : Run t more u) : Run s (log ++ more) u := by
  induction h₂ with
  | rest => rw [List.append_nil]; exact h₁
  | move _ m hm ih => rw [← List.append_assoc]; exact ih.move m hm

end Run

theorem reachable_iff {backend : String} {catalog : Option String} {now : Nat} {s : System} :
    System.Reachable backend catalog now s ↔ ∃ log, Run (.new backend catalog now) log s := by
  constructor
  · intro h
    induction h with
    | new => exact ⟨[], .rest⟩
    | step _ hs ih =>
      obtain ⟨log, ih⟩ := ih
      obtain ⟨m, hm⟩ := step_iff.mp hs
      exact ⟨_, ih.move m hm⟩
  · rintro ⟨log, h⟩
    induction h with
    | rest => exact .new
    | move _ m hm ih => exact .step ih (step_iff.mpr ⟨m, hm⟩)

/-! ### Runs move by move -/

/-- The notes and the end of a run that makes the given moves, if they can be made. -/
def System.follow (s : System) : List Move → Option (List Note × System)
  | [] => some ([], s)
  | m :: ms => (s.move? m).bind fun t => (t.follow ms).map fun (log, u) => (s.notes m ++ log, u)

theorem System.run_of_follow {s t : System} {log : List Note} {ms : List Move} (h : s.follow ms = some (log, t)) :
    Run s log t := by
  induction ms generalizing s log with
  | nil =>
    cases h
    exact .rest
  | cons m ms ih =>
    obtain ⟨u, hu, h⟩ := Option.bind_eq_some_iff.mp h
    obtain ⟨⟨more, v⟩, hf, heq⟩ := Option.map_eq_some_iff.mp h
    cases heq
    exact (Run.rest.move m hu).trans (ih hf)

/-- The notes and the end of a run that can be made, else of none. -/
def System.played (s : System) (ms : List Move) : List Note × System :=
  (s.follow ms).getD ([], s)

theorem System.run_played {s : System} (ms : List Move) : Run s (s.played ms).1 (s.played ms).2 := by
  unfold played
  cases h : s.follow ms with
  | none => exact .rest
  | some x => exact run_of_follow h

/-! ### Chronicles -/

/-- The notes of one record, in order. -/
def chronicle (record : Nat) (log : List Note) : List Note :=
  log.filter (·.record = some record)

@[simp] theorem chronicle_nil (record : Nat) : chronicle record [] = [] := rfl

@[simp] theorem chronicle_append (record : Nat) (log more : List Note) :
    chronicle record (log ++ more) = chronicle record log ++ chronicle record more :=
  List.filter_append ..

theorem mem_chronicle {record : Nat} {log : List Note} {n : Note} :
    n ∈ chronicle record log ↔ n ∈ log ∧ n.record = some record := by
  simp [chronicle]

/-! ### A run with everything in it -/

namespace Tour

def spec : Sandbox.Spec :=
  ⟨"", "", "", 0, "", "", "", .empty, .empty, none⟩

def address : Address :=
  .v4 10 0 0 1

/-- A create that gets its machine and the addresses of it. -/
def provision (n : Nat) (machine : Machine.Handle) : List Move :=
  [.start (.create spec 0), .advance ⟨n, 0⟩, .answer ⟨n, 0⟩ (.backend (.provision (.forPod "" "" none 0))) (.ok machine),
    .answer ⟨n, 0⟩ (.backend (.addresses machine)) (.ok [address])]

def create (n : Nat) (machine : Machine.Handle) (agent : Connection) : List Move :=
  provision n machine ++ [.answer ⟨n, 0⟩ (.connect address) (.ok agent), .advance ⟨n, 0⟩, .advance ⟨n, 0⟩]

/-- A call that goes to its record and gets the lock. -/
def approach (n : Nat) (c : Call) : List Move :=
  [.start c, .advance ⟨n, 0⟩, .advance ⟨n, 0⟩, .advance ⟨n, 0⟩, .advance ⟨n, 0⟩]

def lost : Machine.Handle := ⟨"lost", "lost"⟩

def gone : Machine.Handle := ⟨"gone", "gone"⟩

def kept : Machine.Handle := ⟨"kept", "kept"⟩

def down : Failure :=
  .backendCall "backend" "down"

/-- A machine is lost because its agent does not answer, and two become sandboxes. When their samples are too old, a
    list asks for both at once and gets one answer. Then the one is removed at the second attempt, with a status
    waiting behind it, and the other is stopped. -/
def moves : List Move :=
  provision 0 lost ++ [.answer ⟨0, 0⟩ (.connect address) (.error down), .answer ⟨0, 0⟩ (.backend (.destroy lost)) (.ok ())] ++
  create 1 gone 0 ++ create 2 kept 1 ++
  [.pass 30001, .start (.list .everything), .advance ⟨3, 0⟩, .advance ⟨3, 0⟩, .advance ⟨3, 1⟩, .advance ⟨3, 0⟩,
    .advance ⟨3, 0⟩, .advance ⟨3, 1⟩, .answer ⟨3, 1⟩ (.backend (.state kept)) (.error down),
    .answer ⟨3, 0⟩ (.backend (.state gone)) (.ok .running)] ++
  approach 4 (.remove "gone") ++ [.answer ⟨4, 0⟩ (.backend (.destroy gone)) (.error down)] ++
  approach 5 (.remove "gone") ++
  [.start (.status "gone"), .advance ⟨6, 0⟩, .advance ⟨6, 0⟩, .advance ⟨6, 0⟩,
    .answer ⟨5, 0⟩ (.backend (.destroy gone)) (.ok ()), .answer ⟨5, 0⟩ (.close 0) (), .advance ⟨6, 0⟩, .advance ⟨5, 0⟩,
    .advance ⟨5, 0⟩] ++
  approach 7 (.stop "kept") ++ approach 8 (.status "kept") ++ [.answer ⟨8, 0⟩ (.backend (.state kept)) (.ok .running)]

def log : List Note :=
  ((System.new "fake" none 0).played moves).1

def final : System :=
  ((System.new "fake" none 0).played moves).2

theorem run : Run (.new "fake" none 0) log final :=
  System.run_played moves

end Tour

end PodMachines.Pods
