import PodMachines.Proofs.Pods.Effect
import PodMachines.Proofs.Shim.Talk
import PodMachines.Session.Step

/-! What the courses of requests ask for before they can still be refused. Main statement: after a reply that may come
    with a change, no course of a request ends in a refusal. -/

namespace PodMachines.Service

/-- Whether something may have changed when this is replied. -/
def Act.Alters : (act : Act) → act.Reply → Prop
  | .pods c, result => c.Alters result
  | .keep .., .ok _ => True
  | .bootImages, _ | .forget _, _ | .close _, _ => True
  | _, _ => False

namespace Course
variable {α β : Type} {bad : α → Prop} {left : Course α}

/-- Whether no end of the course is a bad one. -/
def Firm (bad : α → Prop) (p : Course α) : Prop :=
  ∀ talk a, p.Leads talk (.done a) → ¬bad a

/-- Whether the course comes to no bad end after a reply that may come with a change. -/
def Careful (bad : α → Prop) : Course α → Prop
  | Program.done _ | Program.crash _ => True
  | Program.ask act next => ∀ reply, Careful bad (next reply) ∧ (act.Alters reply → Firm bad (next reply))

theorem firm_done {a : α} (h : ¬bad a) : Firm bad (.done a) := by
  intro talk b hb
  obtain ⟨-, hb⟩ := Program.leads_done.mp hb
  cases hb
  exact h

theorem Firm.next {act : Act} {next : act.Reply → Course α} (h : Firm bad (Program.ask act next)) (reply : act.Reply) :
    Firm bad (next reply) :=
  fun talk a ha => h (⟨act, reply⟩ :: talk) a (.reply reply ha)

theorem Careful.led {p : Course α} {talk : Program.Talk Act Act.Reply} (h : p.Leads talk left) (hp : Careful bad p) :
    Careful bad left := by
  induction h with
  | rest => exact hp
  | reply r h ih => exact ih (hp r).1

/-- A course is careful if it never asks for what may change something. -/
theorem Careful.of_uses {p : Course α} (h : p.Uses fun act => ∀ reply, ¬act.Alters reply) : Careful bad p := by
  induction p with
  | done a => trivial
  | crash why => trivial
  | ask act next ih => exact fun reply => ⟨ih reply (h.2 reply), fun ha => absurd ha (h.1 reply)⟩

/-- A careful course is careful whatever is made of its end, if bad is only made of bad. -/
theorem Careful.map {p : Course α} {f : α → β} {worse : β → Prop} (h : Careful bad p)
    (hf : ∀ a, worse (f a) → bad a) : Careful worse (p.bind fun a => .done (f a)) := by
  induction p with
  | done a => trivial
  | crash why => trivial
  | ask act next ih =>
    refine fun reply => ⟨ih reply (h reply).1, fun ha talk b hb hw => ?_⟩
    obtain ⟨first, rest, a, -, hfirst, hrest⟩ := Program.leads_bind_done.mp hb
    obtain ⟨-, hb⟩ := Program.leads_done.mp hrest
    cases hb
    exact (h reply).2 ha first a hfirst (hf a hw)

end Course

open Course

/-- Whether a request is refused. -/
def Refused {α : Type} (result : Except Status α) : Prop :=
  ∃ status, result = .error status

theorem answered_careful {α : Type} (result : Except Failure α) : Careful Refused (Course.answered result) := by
  cases result <;> trivial

theorem answered_firm {α : Type} {result : Except Failure α} {a : α} (h : result = .ok a) :
    Firm Refused (Course.answered result) := by
  subst h
  exact firm_done nofun

theorem agentOf_uses {allowed : Act → Prop} (id : String) (h : allowed (.pods (.agent id))) :
    (agentOf id).Uses allowed := by
  refine ⟨h, fun result => ?_⟩
  cases result with
  | ok connection => trivial
  | error f => cases f <;> trivial

theorem forward_uses {allowed : Act → Prop} (id : String) (request : Agent.Request) (h : allowed (.pods (.agent id)))
    (hf : ∀ connection, allowed (.forward connection request)) : (forward id request).Uses allowed := by
  refine (agentOf_uses id h).bind fun result => ?_
  cases result with
  | ok connection => exact ⟨hf connection, fun _ => trivial⟩
  | error f => trivial

theorem listAll_uses {allowed : Act → Prop} (filter : Option Message.ContainerFilter) (ids : List String)
    (hi : allowed (.inquire filter ids)) (hw : ∀ inquiries, allowed (.await inquiries)) :
    (listAll filter ids).Uses allowed :=
  ⟨hi, fun inquiries => ⟨hw inquiries, fun _ => trivial⟩⟩

theorem answered_uses {α : Type} {allowed : Act → Prop} (result : Except Failure α) :
    (Course.answered result).Uses allowed := by
  cases result <;> trivial

theorem agentOf_sturdy (id : String) : (agentOf id).Sturdy := by
  intro result
  cases result with
  | ok connection => trivial
  | error f => cases f <;> trivial

theorem forward_sturdy (id : String) (request : Agent.Request) : (forward id request).Sturdy := by
  refine (agentOf_sturdy id).bind fun result => ?_
  cases result with
  | ok connection => exact fun _ => trivial
  | error f => trivial

theorem answered_sturdy {α : Type} (result : Except Failure α) : (Course.answered result).Sturdy := by
  cases result <;> trivial

/-! ### Requests about containers -/

/-- How a request about containers is served that is for one sandbox or for all. -/
theorem serveContainers_cases (request : Agent.Request) :
    (∃ id, serveContainers request = (forward id request).bind Course.answered) ∨
      ∃ filter, request = .listContainers filter ∧ listedSandbox filter = none := by
  cases request with
  | listContainers filter =>
    cases hl : listedSandbox filter with
    | some id => exact .inl ⟨id, by simp only [serveContainers, hl]; rfl⟩
    | none => exact .inr ⟨filter, rfl, hl⟩
  | _ => exact .inl ⟨_, rfl⟩

/-- The containers of all sandboxes are inquired after once it is known which sandboxes there are. -/
theorem serveContainers_all {filter : Option Message.ContainerFilter} (h : listedSandbox filter = none) :
    serveContainers (.listContainers filter) =
      (Course.ask (.pods .ids)).bind fun ids => (listAll filter ids).bind fun containers => .done (.ok containers) := by
  simp only [serveContainers, h]
  rfl

/-- A request about containers asks for an agent and forwards a request, or asks for the ids of sandboxes and has
    inquiries made. -/
theorem serveContainers_uses {allowed : Act → Prop} (request : Agent.Request) (hids : allowed (.pods .ids))
    (h : ∀ id, allowed (.pods (.agent id))) (hf : ∀ connection request, allowed (.forward connection request))
    (hi : ∀ filter ids, allowed (.inquire filter ids)) (hw : ∀ inquiries, allowed (.await inquiries)) :
    (serveContainers request).Uses allowed := by
  obtain ⟨id, hs⟩ | ⟨filter, rfl, hl⟩ := serveContainers_cases request
  · rw [hs]
    exact (forward_uses id request (h id) fun connection => hf connection request).bind answered_uses
  · rw [serveContainers_all hl]
    refine ⟨hids, fun ids => ?_⟩
    exact (listAll_uses filter ids (hi filter ids) hw).bind fun _ => trivial

theorem serveContainers_sturdy (request : Agent.Request) : (serveContainers request).Sturdy := by
  obtain ⟨id, hs⟩ | ⟨filter, rfl, hl⟩ := serveContainers_cases request
  · rw [hs]
    exact (forward_sturdy id request).bind answered_sturdy
  · rw [serveContainers_all hl]
    exact fun ids inquiries results => trivial

/-! ### Careful requests -/

theorem withReference_careful {α : Type} (image : Option Message.ImageSpec)
    {go : Images → String → Course (Except Status α)} (h : ∀ images reference, Careful Refused (go images reference)) :
    Careful Refused (withReference image go) := by
  intro images
  refine ⟨?_, nofun⟩
  cases images with
  | none => trivial
  | some images =>
    cases hi : required image with
    | error status => trivial
    | ok reference => exact h images reference

/-- Whatever is requested, nothing is refused any more after a reply that may come with a change. -/
theorem serve_careful (backend : String) (r : Request) : Careful Refused (serve backend r) := by
  cases r with
  | version => trivial
  | exec containerId => trivial
  | runPod config runtimeHandler =>
    cases config with
    | none => trivial
    | some config =>
      refine fun images => ⟨fun suffix => ⟨fun result => ?_, nofun⟩, nofun⟩
      refine ⟨answered_careful result, fun ha => ?_⟩
      cases result with
      | ok id => exact answered_firm rfl
      | error f => cases ha
  | stopPod id | removePod id =>
    refine fun result => ⟨answered_careful result, fun ha => ?_⟩
    cases result with
    | ok => exact answered_firm rfl
    | error f => cases ha
  | podStatus id verbose =>
    intro result
    cases result with
    | ok s => exact ⟨trivial, fun _ => firm_done nofun⟩
    | error f => exact ⟨trivial, nofun⟩
  | listPods filter =>
    cases hf : Sandbox.Filter.ofMessage filter with
    | error status =>
      simp only [serve, hf]
      trivial
    | ok filter =>
      simp only [serve, hf]
      exact fun statuses => ⟨trivial, fun _ => firm_done nofun⟩
  | containers request =>
    exact .of_uses (serveContainers_uses request (fun _ => id) (fun _ _ => id) (fun _ _ _ => id) (fun _ _ _ => id)
      fun _ _ => id)
  | listImages image =>
    intro images
    cases images with
    | none => exact ⟨trivial, nofun⟩
    | some images => exact ⟨trivial, nofun⟩
  | imageStatus image => exact withReference_careful image fun _ _ => trivial
  | pullImage image =>
    refine withReference_careful image fun images reference => ?_
    unfold pull
    cases images.asked reference with
    | error result => exact answered_careful result
    | ok parsed =>
      refine fun found => ⟨fun result => ⟨answered_careful result, fun ha => ?_⟩, nofun⟩
      cases result with
      | ok id => exact answered_firm rfl
      | error f => cases ha
  | removeImage image =>
    exact withReference_careful image fun _ _ _ => ⟨trivial, fun _ => firm_done nofun⟩

end PodMachines.Service

namespace PodMachines.Session
open Service Service.Course

/-- What is answered to a request, as it was served. -/
def Answer.served (r : Request) : Except Status r.Response → Answer
  | .ok value => .response r value
  | .error refusal => .refused refusal

/-- The course of a request to the service. -/
def requested (backend : String) (r : Request) : Course Answer :=
  (serve backend r).bind fun result => .done (.served r result)

theorem course_request (s : Session) (r : Request) :
    Action.course s (.request r) = some (requested s.pods.backend r) := by
  refine congrArg some (congrArg (Program.bind _) (funext fun result => ?_))
  cases result <;> rfl

def Answer.Refuses (a : Answer) : Prop :=
  ∃ status, a = .refused status

theorem requested_careful (backend : String) (r : Request) : Careful Answer.Refuses (requested backend r) := by
  refine (serve_careful backend r).map fun result h => ?_
  obtain ⟨status, h⟩ := h
  cases result with
  | ok value => cases h
  | error status => exact ⟨status, rfl⟩

end PodMachines.Session
