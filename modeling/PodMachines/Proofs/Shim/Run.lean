import PodMachines.Proofs.Pods.Pace
import PodMachines.Proofs.Shim.Careful

/-! All that the service has under way, in an outside that may answer anything: courses are received at any time, and
    those under way and the strands of their calls go on one step at a time in any order. Main statement: what the
    pods go through in a run is a run of the pods. -/

namespace PodMachines
open Service

/-- A course under way. -/
structure Job (α : Type) where
  course : Course α
  /-- What it has asked and been replied. -/
  talk : Program.Talk Act Act.Reply
  left : Course α
  /-- The call on the pods whose end it waits for. -/
  call : Option Nat

namespace Job
variable {α : Type}

/-- A course as it is received. -/
def fresh (course : Course α) : Job α :=
  ⟨course, [], course, none⟩

/-- A job after a reply. -/
def replied (job : Job α) (act : Act) (reply : act.Reply) (next : act.Reply → Course α) : Job α :=
  { job with talk := job.talk ++ [⟨act, reply⟩], left := next reply, call := none }

/-- What a job has come to. -/
def result? (job : Job α) : Option α :=
  match job.left with
  | Program.done a => some a
  | _ => none

/-- The numbers of the inquiries that a job was told. -/
def inquiries (job : Job α) : List Nat :=
  job.talk.flatMap fun
    | ⟨.inquire .., numbers⟩ => numbers
    | _ => []

end Job

/-- An inquiry after the containers of a sandbox, which goes on beside the job that has begun it. -/
abbrev Inquiry := Job (Except Failure (List Message.Container))

/-- The service with its pods and images, and the courses that it received. -/
structure Shim (α : Type) where
  pods : Pods.System
  images : Option Images
  /-- The connections that were closed. -/
  closed : List Connection
  jobs : List (Job α)
  /-- The inquiries by their numbers. -/
  inquiries : List Inquiry

namespace Shim
variable {α : Type}

/-- The service before it has received anything. -/
def new (backend : String) (catalog : Option String) (now : Nat) (images : Option Images) : Shim α :=
  ⟨.new backend catalog now, images, [], [], []⟩

/-- What others than the service reply to a course. -/
inductive Word
  | suffix (n : UInt32)
  /-- How an agent answers. -/
  | agent (answer : (request : Agent.Request) → Except Failure request.Answer)
  | closed
  | found (images : Except Failure (List Image.Record))

/-- The reply to what is asked, if the word is one. -/
def Word.reply? : Word → (act : Act) → Option act.Reply
  | .suffix n, .suffix => some n
  | .agent answer, .forward _ request => some (answer request)
  | .closed, .close _ => some ()
  | .found images, .find _ => some images
  | _, _ => none

/-- With a connection closed, if that was asked. -/
def closing (s : Shim α) : Act → Shim α
  | .close connection => { s with closed := s.closed ++ [connection] }
  | _ => s

/-- What the service replies to a course itself. -/
def own (s : Shim α) : (act : Act) → Option (act.Reply × Shim α)
  | .bootImages => some ((), { s with pods := s.pods.enableImageBoot })
  | .images => some (s.images, s)
  | .keep reference found =>
    match s.images with
    | some images => some ((images.pulled reference found).1, { s with images := some (images.pulled reference found).2 })
    | none => some (.error (.unimplemented ""), s)
  | .forget reference => some ((), { s with images := s.images.map fun images => images.forget reference })
  | .inquire filter ids =>
    some (List.range' s.inquiries.length ids.length,
      { s with inquiries := s.inquiries ++ ids.map fun id => .fresh (inquiry filter id) })
  | .await inquiries => (inquiries.mapM fun k => s.inquiries[k]?.bind Job.result?).map fun results => (results, s)
  | _ => none

/-- With a reply for a job. -/
def told (s : Shim α) (n : Nat) (job : Job α) (act : Act) (reply : act.Reply) (next : act.Reply → Course α) : Shim α :=
  { s with jobs := s.jobs.set n (job.replied act reply next) }

/-- With a call on the pods started for a job. -/
def calling (s : Shim α) (n : Nat) (job : Job α) (c : Pods.Call) : Shim α :=
  { s with pods := s.pods.start c, jobs := s.jobs.set n { job with call := some s.pods.calls.length } }

/-- With a reply for an inquiry. -/
def informed (s : Shim α) (k : Nat) (inquiry : Inquiry) (act : Act) (reply : act.Reply)
    (next : act.Reply → Course (Except Failure (List Message.Container))) : Shim α :=
  { s with inquiries := s.inquiries.set k (inquiry.replied act reply next) }

/-- With a call on the pods started for an inquiry. -/
def seeking (s : Shim α) (k : Nat) (inquiry : Inquiry) (c : Pods.Call) : Shim α :=
  { s with pods := s.pods.start c, inquiries := s.inquiries.set k { inquiry with call := some s.pods.calls.length } }

@[simp] theorem closing_pods (s : Shim α) (act : Act) : (s.closing act).pods = s.pods := by
  cases act <;> rfl

@[simp] theorem closing_jobs (s : Shim α) (act : Act) : (s.closing act).jobs = s.jobs := by
  cases act <;> rfl

theorem own_await {s t : Shim α} {inquiries : List Nat} {results : List (Except Failure (List Message.Container))}
    (h : s.own (.await inquiries) = some (results, t)) :
    t = s ∧ (inquiries.mapM fun k => s.inquiries[k]?.bind Job.result?) = some results := by
  obtain ⟨all, hall, heq⟩ := Option.map_eq_some_iff.mp h
  cases heq
  exact ⟨rfl, hall⟩

section
variable {s t : Shim α} {act : Act} {reply : act.Reply}

/-! What the service itself replies, field by field. -/

theorem own_pods (h : s.own act = some (reply, t)) :
    t.pods = s.pods ∨ act = .bootImages ∧ t.pods = s.pods.enableImageBoot := by
  cases act with
  | bootImages =>
    cases h
    exact .inr ⟨rfl, rfl⟩
  | keep reference found =>
    simp only [own] at h
    split at h <;> cases h <;> exact .inl rfl
  | await inquiries => exact .inl (congrArg pods (own_await h).1)
  | images | forget reference | inquire filter ids =>
    cases h
    exact .inl rfl
  | _ => cases h

theorem own_jobs (h : s.own act = some (reply, t)) : t.jobs = s.jobs := by
  cases act with
  | keep reference found =>
    simp only [own] at h
    split at h <;> cases h <;> rfl
  | await inquiries => exact congrArg jobs (own_await h).1
  | bootImages | images | forget reference | inquire filter ids =>
    cases h
    rfl
  | _ => cases h

theorem own_inquiries (h : s.own act = some (reply, t)) :
    t.inquiries = s.inquiries ∨ ∃ filter ids, act = .inquire filter ids ∧
      t.inquiries = s.inquiries ++ ids.map fun id => .fresh (inquiry filter id) := by
  cases act with
  | keep reference found =>
    simp only [own] at h
    split at h <;> cases h <;> exact .inl rfl
  | inquire filter ids =>
    cases h
    exact .inr ⟨filter, ids, rfl, rfl⟩
  | await inquiries => exact .inl (congrArg Shim.inquiries (own_await h).1)
  | bootImages | images | forget reference =>
    cases h
    exact .inl rfl
  | _ => cases h

end

@[simp] theorem told_pods (s : Shim α) (n : Nat) (job : Job α) (act : Act) (reply : act.Reply)
    (next : act.Reply → Course α) : (s.told n job act reply next).pods = s.pods := rfl

/-- What makes the service go on. -/
inductive Move (α : Type)
  | receive (course : Course α)
  /-- A job starts the call that it asks for, takes its result, or has a reply of the service itself. -/
  | proceed (n : Nat)
  /-- A job hears a reply of others. -/
  | hear (n : Nat) (word : Word)
  /-- An inquiry starts the call that it asks for, or takes its result. -/
  | pursue (k : Nat)
  /-- An inquiry hears how an agent answers. -/
  | learn (k : Nat) (answer : (request : Agent.Request) → Except Failure request.Answer)
  | pods (m : Pods.Move)

/-- The connections that an answer to the pods reports as closed. -/
def closes : Pods.Move → List Connection
  | .answer _ (.close connection) _ => [connection]
  | _ => []

def proceed? (s : Shim α) (n : Nat) (job : Job α) : Option (Shim α) :=
  match job.left with
  | Program.ask (.pods c) next =>
    match job.call with
    | none => some (s.calling n job c)
    | some k => (s.pods.result? k c).map fun result => s.told n job (.pods c) result next
  | Program.ask act next => (s.own act).map fun (reply, s) => s.told n job act reply next
  | _ => none

def hear? (s : Shim α) (n : Nat) (job : Job α) (word : Word) : Option (Shim α) :=
  match job.left with
  | Program.ask act next => (word.reply? act).map fun reply => (s.closing act).told n job act reply next
  | _ => none

def pursue? (s : Shim α) (k : Nat) (inquiry : Inquiry) : Option (Shim α) :=
  match inquiry.left with
  | Program.ask (.pods c) next =>
    match inquiry.call with
    | none => some (s.seeking k inquiry c)
    | some number => (s.pods.result? number c).map fun result => s.informed k inquiry (.pods c) result next
  | _ => none

def learn? (s : Shim α) (k : Nat) (inquiry : Inquiry)
    (answer : (request : Agent.Request) → Except Failure request.Answer) : Option (Shim α) :=
  match inquiry.left with
  | Program.ask (.forward connection request) next =>
    some (s.informed k inquiry (.forward connection request) (answer request) next)
  | _ => none

/-- The next state, if the move can be made. -/
def move? (s : Shim α) : Move α → Option (Shim α)
  | .receive course => some { s with jobs := s.jobs ++ [.fresh course] }
  | .proceed n => s.jobs[n]?.bind (s.proceed? n)
  | .hear n word => s.jobs[n]?.bind fun job => s.hear? n job word
  | .pursue k => s.inquiries[k]?.bind (s.pursue? k)
  | .learn k answer => s.inquiries[k]?.bind fun inquiry => s.learn? k inquiry answer
  | .pods m => (s.pods.move? m).map fun pods => { s with pods := pods, closed := s.closed ++ closes m }

/-- What is noted of the pods at a move. -/
def notes (s : Shim α) : Move α → List Pods.Note
  | .pods m => s.pods.notes m
  | _ => []

/-- What a move is. -/
inductive Goes (s : Shim α) : Move α → Shim α → Prop
  | receive (course : Course α) : Goes s (.receive course) { s with jobs := s.jobs ++ [.fresh course] }
  | call {n : Nat} {job : Job α} {c : Pods.Call} {next : c.Result → Course α} (hj : s.jobs[n]? = some job)
      (hl : job.left = Program.ask (.pods c) next) (hc : job.call = none) : Goes s (.proceed n) (s.calling n job c)
  | take {n k : Nat} {job : Job α} {c : Pods.Call} {next : c.Result → Course α} {result : c.Result}
      (hj : s.jobs[n]? = some job) (hl : job.left = Program.ask (.pods c) next) (hc : job.call = some k)
      (hr : s.pods.result? k c = some result) : Goes s (.proceed n) (s.told n job (.pods c) result next)
  | own {n : Nat} {job : Job α} {act : Act} {next : act.Reply → Course α} {reply : act.Reply} {t : Shim α}
      (hj : s.jobs[n]? = some job) (hl : job.left = Program.ask act next) (ho : s.own act = some (reply, t)) :
      Goes s (.proceed n) (t.told n job act reply next)
  | hear {n : Nat} {word : Word} {job : Job α} {act : Act} {next : act.Reply → Course α} {reply : act.Reply}
      (hj : s.jobs[n]? = some job) (hl : job.left = Program.ask act next) (hw : word.reply? act = some reply) :
      Goes s (.hear n word) ((s.closing act).told n job act reply next)
  | seek {k : Nat} {inquiry : Inquiry} {c : Pods.Call}
      {next : c.Result → Course (Except Failure (List Message.Container))} (hi : s.inquiries[k]? = some inquiry)
      (hl : inquiry.left = Program.ask (.pods c) next) (hc : inquiry.call = none) :
      Goes s (.pursue k) (s.seeking k inquiry c)
  | find {k number : Nat} {inquiry : Inquiry} {c : Pods.Call}
      {next : c.Result → Course (Except Failure (List Message.Container))} {result : c.Result}
      (hi : s.inquiries[k]? = some inquiry) (hl : inquiry.left = Program.ask (.pods c) next)
      (hc : inquiry.call = some number) (hr : s.pods.result? number c = some result) :
      Goes s (.pursue k) (s.informed k inquiry (.pods c) result next)
  | learn {k : Nat} {inquiry : Inquiry} {connection : Connection} {request : Agent.Request}
      {next : Except Failure request.Answer → Course (Except Failure (List Message.Container))}
      (hi : s.inquiries[k]? = some inquiry) (hl : inquiry.left = Program.ask (.forward connection request) next)
      (answer : (request : Agent.Request) → Except Failure request.Answer) :
      Goes s (.learn k answer) (s.informed k inquiry (.forward connection request) (answer request) next)
  | pods {m : Pods.Move} {pods : Pods.System} (h : s.pods.move? m = some pods) :
      Goes s (.pods m) { s with pods := pods, closed := s.closed ++ closes m }

theorem goes_of_move {s t : Shim α} {m : Move α} (h : s.move? m = some t) : s.Goes m t := by
  cases m with
  | receive course =>
    cases h
    exact .receive course
  | proceed n =>
    obtain ⟨job, hj, h⟩ := Option.bind_eq_some_iff.mp h
    unfold proceed? at h
    split at h
    · rename_i c next hl
      split at h
      · rename_i hc
        cases h
        exact .call hj hl hc
      · rename_i k hc
        obtain ⟨result, hr, rfl⟩ := Option.map_eq_some_iff.mp h
        exact .take hj hl hc hr
    · rename_i act next _ hl
      obtain ⟨⟨reply, t⟩, ho, rfl⟩ := Option.map_eq_some_iff.mp h
      exact .own hj hl ho
    · cases h
  | hear n word =>
    obtain ⟨job, hj, h⟩ := Option.bind_eq_some_iff.mp h
    unfold hear? at h
    split at h
    · rename_i act next hl
      obtain ⟨reply, hw, rfl⟩ := Option.map_eq_some_iff.mp h
      exact .hear hj hl hw
    · cases h
  | pursue k =>
    obtain ⟨inquiry, hi, h⟩ := Option.bind_eq_some_iff.mp h
    unfold pursue? at h
    split at h
    · rename_i c next hl
      split at h
      · rename_i hc
        cases h
        exact .seek hi hl hc
      · rename_i number hc
        obtain ⟨result, hr, rfl⟩ := Option.map_eq_some_iff.mp h
        exact .find hi hl hc hr
    · cases h
  | learn k answer =>
    obtain ⟨inquiry, hi, h⟩ := Option.bind_eq_some_iff.mp h
    unfold learn? at h
    split at h
    · rename_i connection request next hl
      cases h
      exact .learn hi hl answer
    · cases h
  | pods m =>
    obtain ⟨pods, hm, rfl⟩ := Option.map_eq_some_iff.mp h
    exact .pods hm

/-! ### Runs -/

/-- A run from one state to another, its moves, and the notes of the pods. -/
inductive Run (s : Shim α) : List (Move α) → List Pods.Note → Shim α → Prop
  | rest : Run s [] [] s
  | move {ms : List (Move α)} {log : List Pods.Note} {t u : Shim α} (h : Run s ms log t) (m : Move α)
      (hm : t.move? m = some u) : Run s (ms ++ [m]) (log ++ t.notes m) u

variable {s t u : Shim α} {ms more : List (Move α)} {log after : List Pods.Note}

theorem Run.trans (h : Run s ms log t) (h' : Run t more after u) : Run s (ms ++ more) (log ++ after) u := by
  induction h' with
  | rest =>
    rw [List.append_nil, List.append_nil]
    exact h
  | move _ m hm ih =>
    rw [← List.append_assoc, ← List.append_assoc]
    exact ih.move m hm

/-- A run comes to a state on the way after any part of its moves. -/
theorem Run.split (h : Run s (ms ++ more) log u) :
    ∃ before after t, log = before ++ after ∧ Run s ms before t ∧ Run t more after u := by
  generalize hall : ms ++ more = all at h
  induction h generalizing more with
  | rest =>
    obtain ⟨rfl, rfl⟩ := List.append_eq_nil_iff.mp hall
    exact ⟨[], [], s, rfl, .rest, .rest⟩
  | @move all log v w hrun m hm ih =>
    rcases List.eq_nil_or_concat more with rfl | ⟨rest, last, rfl⟩
    · rw [List.append_nil] at hall
      exact ⟨log ++ v.notes m, [], w, (List.append_nil _).symm, hall ▸ hrun.move m hm, .rest⟩
    · rw [List.concat_eq_append, ← List.append_assoc] at hall
      obtain ⟨hinit, hlast⟩ := List.append_inj' hall rfl
      obtain rfl := (List.cons.inj hlast).1
      obtain ⟨before, after, t, rfl, hbefore, hafter⟩ := ih hinit
      refine ⟨before, after ++ v.notes last, t, List.append_assoc .., hbefore, ?_⟩
      rw [List.concat_eq_append]
      exact hafter.move last hm

/-- The moves of a run determine where it comes to and what is noted. -/
theorem Run.unique {log' : List Pods.Note} (h : Run s ms log t) (h' : Run s ms log' u) : t = u ∧ log = log' := by
  induction h generalizing u log' with
  | rest =>
    generalize hall : [] = all at h'
    cases h' with
    | rest => exact ⟨rfl, rfl⟩
    | move _ m _ => simp at hall
  | @move ms log v w hrun m hm ih =>
    generalize hall : ms ++ [m] = all at h'
    cases h' with
    | rest => simp at hall
    | move hrun' m' hm' =>
      obtain ⟨rfl, hlast⟩ := List.append_inj' hall rfl
      obtain rfl := (List.cons.inj hlast).1
      obtain ⟨rfl, rfl⟩ := ih hrun'
      exact ⟨Option.some.inj (hm.symm.trans hm'), rfl⟩

/-- What holds at the start of a run and is kept by every move holds at its end. -/
theorem Run.induct {P : List (Move α) → List Pods.Note → Shim α → Prop} (rest : P [] [] s)
    (step : ∀ {ms log t m u}, Run s ms log t → P ms log t → t.Goes m u → P (ms ++ [m]) (log ++ t.notes m) u)
    (h : Run s ms log t) : P ms log t := by
  induction h with
  | rest => exact rest
  | move h m hm ih => exact step h ih (goes_of_move hm)

theorem Run.pods (h : Run s ms log t) : Pods.Run s.pods log t.pods := by
  refine Run.induct (P := fun _ log t => Pods.Run s.pods log t.pods) .rest ?_ h
  intro ms log t m u _ ih hg
  have same (h : t.notes m = []) {v : Pods.System} (hv : Pods.Run s.pods log v) :
      Pods.Run s.pods (log ++ t.notes m) v := by
    rw [h, List.append_nil]
    exact hv
  cases hg with
  | receive course => exact same rfl ih
  | call hj hl hc => exact ih.move (.start _) rfl
  | take hj hl hc hr => exact same rfl ih
  | own hj hl ho =>
    rw [told_pods]
    rcases own_pods ho with hpods | ⟨-, hpods⟩
    · exact same rfl (hpods ▸ ih)
    · rw [hpods]
      exact ih.move .enableImageBoot rfl
  | hear hj hl hw =>
    refine same rfl ?_
    rw [told_pods, closing_pods]
    exact ih
  | seek hi hl hc => exact ih.move (.start _) rfl
  | find hi hl hc hr => exact same rfl ih
  | learn hi hl answer => exact same rfl ih
  | pods h => exact ih.move _ h

/-! ### Runs move by move -/

/-- The notes and the end of a run that makes the given moves, if they can be made. -/
def follow (s : Shim α) : List (Move α) → Option (List Pods.Note × Shim α)
  | [] => some ([], s)
  | m :: ms => (s.move? m).bind fun t => (t.follow ms).map fun (log, u) => (s.notes m ++ log, u)

theorem run_of_follow (h : s.follow ms = some (log, t)) : Run s ms log t := by
  induction ms generalizing s log with
  | nil =>
    cases h
    exact .rest
  | cons m ms ih =>
    obtain ⟨u, hu, h⟩ := Option.bind_eq_some_iff.mp h
    obtain ⟨⟨rest, v⟩, hf, heq⟩ := Option.map_eq_some_iff.mp h
    cases heq
    exact (Run.rest.move m hu).trans (ih hf)

/-- The notes and the end of a run that can be made, else of none. -/
def played (s : Shim α) (ms : List (Move α)) : List Pods.Note × Shim α :=
  (s.follow ms).getD ([], s)

theorem follow_played (h : (s.follow ms).isSome = true) : s.follow ms = some (s.played ms) := by
  obtain ⟨x, h⟩ := Option.isSome_iff_exists.mp h
  rw [played, h]
  rfl

theorem run_played (h : (s.follow ms).isSome = true) : Run s ms (s.played ms).1 (s.played ms).2 :=
  run_of_follow (follow_played h)

end Shim

/-! ### A run with everything in it -/

namespace Shim.Tour
open Session (Answer requested)

def first : Shim Answer :=
  .new "fake" none 0 none

def vm : Machine.Handle := ⟨"vm", "vm"⟩

def broken : Status :=
  ⟨.internal, "broken"⟩

/-- An agent that names one container, starts it, and fails at everything else. -/
def agent : (request : Agent.Request) → Except Failure request.Answer
  | .createContainer .. => .ok "vm:c1"
  | .startContainer _ => .ok ()
  | .listContainers _ => .ok []
  | _ => .error (.agent broken)

/-- A request is received as the `n`-th, and starts its first call. -/
def receive (n : Nat) (r : Request) : List (Move Answer) :=
  [.receive (requested "fake" r), .proceed n]

/-- The `n`-th request is told what its call comes to, the `k`-th one, which looks into the directory. -/
def look (n k : Nat) : List (Move Answer) :=
  [.pods (.advance ⟨k, 0⟩), .pods (.advance ⟨k, 0⟩), .proceed n]

/-- The first request, with its call: a machine is made of the given handle, and the agent at it met. -/
def make (n k : Nat) (machine : Machine.Handle) (connection : Connection) : List (Move Answer) :=
  receive n (.runPod (some {}) "") ++ [.hear n (.suffix 0), .proceed n, .pods (.advance ⟨k, 0⟩),
    .pods (.answer ⟨k, 0⟩ (.backend (.provision (.forPod "" "" none 0))) (.ok machine)),
    .pods (.answer ⟨k, 0⟩ (.backend (.addresses machine)) (.ok [Pods.Tour.address])),
    .pods (.answer ⟨k, 0⟩ (.connect Pods.Tour.address) (.ok connection))] ++ look n k

/-- A request that goes to an agent, which answers. -/
def ask (n k : Nat) (request : Agent.Request) : List (Move Answer) :=
  receive n (.containers request) ++ look n k ++ [.hear n (.agent agent)]

/-- A remove that gets as far as the end of its machine. -/
def remove (n k : Nat) : List (Move Answer) :=
  receive n (.removePod "vm") ++ List.replicate 4 (.pods (.advance ⟨k, 0⟩))

/-- A remove that fails. -/
def keep (n k : Nat) : List (Move Answer) :=
  remove n k ++ [.pods (.answer ⟨k, 0⟩ (.backend (.destroy vm)) (.error Pods.Tour.down)), .proceed n]

/-- A remove that succeeds. -/
def drop (n k : Nat) : List (Move Answer) :=
  remove n k ++ [.pods (.answer ⟨k, 0⟩ (.backend (.destroy vm)) (.ok ())), .pods (.answer ⟨k, 0⟩ (.close 0) ())] ++
    look n k

/-- A sandbox is made, and a container in it, which is started; stopping it fails. -/
def settle : List (Move Answer) :=
  make 0 0 vm 0 ++ ask 1 1 (.createContainer "vm" none none) ++ ask 2 2 (.startContainer "vm:c1") ++
    ask 3 3 (.stopContainer "vm:c1" 0)

/-- The `k`-th inquiry starts its call, the `number`-th one. -/
def seek (k number : Nat) : List (Move Answer) :=
  [.pursue k, .pods (.advance ⟨number, 0⟩), .pods (.advance ⟨number, 0⟩), .pursue k]

/-- The containers of all sandboxes are listed. -/
def list : List (Move Answer) :=
  receive 4 (.containers (.listContainers none)) ++ look 4 4 ++ [.proceed 4] ++ seek 0 5 ++
    [.learn 0 agent, .proceed 4]

/-- The sandbox is removed. What is asked of it afterwards and of a sandbox that never was is asked of nobody. -/
def leave : List (Move Answer) :=
  drop 6 7 ++ receive 7 (.containers (.startContainer "vm:c1")) ++ look 7 8 ++
    receive 8 (.containers (.startContainer "other:c1")) ++ look 8 9

/-- Everything, with a remove that fails before the one that succeeds. -/
def moves : List (Move Answer) :=
  settle ++ list ++ keep 5 6 ++ leave

def log : List Pods.Note :=
  (first.played moves).1

def final : Shim Answer :=
  (first.played moves).2

theorem run : Run first moves log final :=
  run_played rfl

/-- While a sandbox is there, another machine is provisioned with its id. The sandbox's container is made before and
    started afterwards. -/
def reuse : List (Move Answer) :=
  make 0 0 vm 0 ++ ask 1 1 (.createContainer "vm" none none) ++ make 2 2 vm 1 ++ ask 3 3 (.startContainer "vm:c1")

end Shim.Tour

end PodMachines
