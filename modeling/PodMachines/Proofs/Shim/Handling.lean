import PodMachines.Proofs.Pods.Deal
import PodMachines.Proofs.Shim.Alone
import PodMachines.Proofs.Shim.Behalf

/-! What a request for one sandbox does to it when it is served alone. Main statement: the request is answered so, and the
    sandbox, its machine and its agent are so then, and this is all that has changed. -/

namespace PodMachines
open Service Session

section
variable {V G : Type} {manners : Pods.Manners V G} {backend name id : String} {call : Nat} {s t : Pods.Store}
  {o o' : Pods.Outer V G} {r : Request}

/-! ### Courses -/

theorem comes_call {α : Type} {a : α} {c : Pods.Call} {next : c.Result → Course α} {made : c.Result → α}
    (hnext : ∀ result, next result = .done (made result)) :
    Course.Comes manners backend a t o' (Program.ask (.pods c) next) call s o ↔
      ∃ result, Pods.Ends manners backend call ⟨.initial c, s, o⟩ result t o' ∧ a = made result := by
  constructor
  · rintro ⟨result, u, p, hends, h⟩
    rw [hnext] at h
    obtain ⟨rfl, rfl, rfl⟩ := h
    exact ⟨result, hends, rfl⟩
  · rintro ⟨result, hends, rfl⟩
    refine ⟨result, t, o', hends, ?_⟩
    rw [hnext]
    exact ⟨rfl, rfl, rfl⟩

/-- What a request is answered whose call on the pods came to this. -/
def answering {β : Type} (r : Request) (value : β → r.Response) : Except Failure β → Answer
  | .ok b => .response r (value b)
  | .error f => .refused f.status

@[simp] theorem answering_ok {β : Type} {value : β → r.Response} (b : β) :
    answering r value (.ok b) = .response r (value b) := rfl

@[simp] theorem answering_missing {β : Type} {value : β → r.Response} :
    answering r value (Pods.Point.missing id) = .refused (unknown id) := rfl

theorem requested_runPod {config : Message.PodConfig} {handler : String} :
    requested name (.runPod (some config) handler) = Program.ask .images fun images =>
      Program.ask .suffix fun suffix =>
        Program.ask (.pods (.create (translated images (.ofConfig config handler)) suffix)) fun result =>
          .done (answering (.runPod (some config) handler) (fun id => id) result) := by
  refine congrArg (Program.ask Act.images) (funext fun images => ?_)
  refine congrArg (Program.ask Act.suffix) (funext fun suffix => ?_)
  refine congrArg (Program.ask (Act.pods (Pods.Call.create _ suffix))) (funext fun result => ?_)
  cases result <;> rfl

/-- A request for a sandbox is answered by what a call has come to that makes it. -/
theorem told_of_runPod {config : Message.PodConfig} {handler : String} {talk : Program.Talk Act Act.Reply} {a : Answer}
    (h : (requested name (.runPod (some config) handler)).Leads talk (.done a)) :
    ∃ own suffix result, ⟨.pods (.create (translated own (.ofConfig config handler)) suffix), result⟩ ∈ talk ∧
      a = answering (.runPod (some config) handler) (fun id => id) result := by
  rw [requested_runPod] at h
  obtain ⟨own, _, rfl, hown⟩ := Program.leads_ask_done.mp h
  obtain ⟨suffix, _, rfl, hsuffix⟩ := Program.leads_ask_done.mp hown
  obtain ⟨result, _, rfl, hresult⟩ := Program.leads_ask_done.mp hsuffix
  obtain ⟨rfl, hanswer⟩ := Program.leads_done.mp hresult
  cases hanswer
  exact ⟨own, suffix, result, by simp, rfl⟩

theorem requested_stopPod : requested name (.stopPod id) =
    Program.ask (.pods (.stop id)) fun result => .done (answering (.stopPod id) (fun u => u) result) := by
  refine congrArg (Program.ask (Act.pods (.stop id))) (funext fun result => ?_)
  cases result <;> rfl

theorem requested_removePod : requested name (.removePod id) =
    Program.ask (.pods (.remove id)) fun result => .done (answering (.removePod id) (fun u => u) result) := by
  refine congrArg (Program.ask (Act.pods (.remove id))) (funext fun result => ?_)
  cases result <;> rfl

theorem requested_podStatus {verbose : Bool} : requested name (.podStatus id verbose) =
    Program.ask (.pods (.status id)) fun result =>
      .done (answering (.podStatus id verbose) (fun s => (s.toMessage, details name verbose s)) result) := by
  refine congrArg (Program.ask (Act.pods (.status id))) (funext fun result => ?_)
  cases result <;> rfl

theorem requested_listPods {filter : Option Message.PodFilter} {f : Sandbox.Filter}
    (hf : Sandbox.Filter.ofMessage filter = .ok f) : requested name (.listPods filter) =
      Program.ask (.pods (.list f)) fun statuses =>
        .done (.response (.listPods filter) (statuses.map Sandbox.Status.toItem)) := by
  simp only [requested, serve, hf]
  rfl

theorem requested_forward {request : Agent.Request}
    (hs : serve name (.containers request) = (forward id request).bind Course.answered) :
    requested name (.containers request) = Program.ask (.pods (.agent id)) fun
      | .ok connection =>
        Program.ask (.forward connection request) fun result => .done (conveyed request result)
      | .error f => .done (conveyed request (.error (if f.isNotFound then .sandboxMissing id else f))) := by
  rw [requested, hs]
  refine congrArg (Program.ask (Act.pods (.agent id))) (funext fun looked => ?_)
  cases looked with
  | ok connection =>
    refine congrArg (Program.ask (Act.forward connection request)) (funext fun result => ?_)
    rcases result with f | value
    · cases f <;> rfl
    · rfl
  | error f => cases f <;> rfl

/-! ### Treatments -/

/-- What a request does to the sandbox that it is for. `name` is the name of the backend. -/
def Service.Request.treatment? (manners : Pods.Manners V G) (name id : String) : Request → Option (Pods.Treatment Answer V G)
  | .stopPod own => ((Pods.Call.stop own).treatment? manners).map (·.map (answering (.stopPod own) fun u => u))
  | .removePod own => ((Pods.Call.remove own).treatment? manners).map (·.map (answering (.removePod own) fun u => u))
  | .podStatus own verbose => ((Pods.Call.status own).treatment? manners).map
    (·.map (answering (.podStatus own verbose) fun s => (s.toMessage, details name verbose s)))
  | .containers request => some ⟨.refused (unknown id), false, fun _ r v g =>
    ⟨conveyed request (manners.serve request g).1, r, v, (manners.serve request g).2, true⟩⟩
  | _ => none

theorem comes_of_treatment {c : Pods.Call} {x : Pods.Treatment Answer V G} {made : c.Result → Answer} {a : Answer}
    (hx : (c.treatment? manners).map (·.map made) = some x) (hid : c.id? = some id) (hf : s.Fair call) (hp : s.Placed) :
    Course.Comes manners backend a t o' (Program.ask (.pods c) fun result => .done (made result)) call s o ↔
      x.Outcome id s o a t o' := by
  obtain ⟨y, hy, rfl⟩ := Option.map_eq_some_iff.mp hx
  rw [comes_call fun _ => rfl, Pods.outcome_map]
  simp only [Pods.ends_iff_outcome hf hp hid hy]

theorem comes_forward {request : Agent.Request} {x : Pods.Treatment Answer V G} {a : Answer}
    (hs : serve name (.containers request) = (forward id request).bind Course.answered)
    (hx : (Request.containers request).treatment? manners name id = some x) (hf : s.Fair call) (hp : s.Placed) :
    Course.Comes manners backend a t o' (requested name (.containers request)) call s o ↔ x.Outcome id s o a t o' := by
  cases hx
  rw [requested_forward hs]
  cases hi : s.directory.find? id with
  | none =>
    rw [Pods.outcome_of_none hi]
    constructor
    · rintro ⟨result, u, p, hends, h⟩
      obtain ⟨hg, rfl, rfl, rfl⟩ := (Pods.outcome_of_none hi).mp ((Pods.ends_iff_outcome hf hp rfl rfl).mp hends)
      obtain ⟨rfl, rfl, rfl⟩ := h
      exact ⟨hg, rfl, rfl, rfl⟩
    · rintro ⟨hg, rfl, rfl, rfl⟩
      refine ⟨.error (.noSandbox id), t, o', (Pods.ends_iff_outcome hf hp rfl rfl).mpr ?_, rfl, rfl, rfl⟩
      exact (Pods.outcome_of_none hi).mpr ⟨hg, rfl, rfl, rfl⟩
  | some i =>
    obtain ⟨r, hr, -⟩ := hp.record hi
    have looked {u : Pods.Store} {p : Pods.Outer V G} {result : Except Failure Connection} :
        Pods.Ends manners backend call (c := .agent id) ⟨.initial (.agent id), s, o⟩ result u p ↔
          s.guard ≠ .writer ∧ result = .ok r.agent ∧ u = s ∧ p = o := by
      rw [Pods.ends_iff_outcome hf hp rfl rfl, Pods.outcome_of_some hi hr rfl]
      simp [Pods.Store.dealt_of_kept, Pods.Store.put_self hr, Pods.Outer.dealt_self]
    have hdealt {g : G} : o.dealt r (⟨a, r, o.machine r.machine, g, true⟩ : Pods.Deal Answer V G) = o.setAgent r.agent g := by
      rw [Pods.Outer.dealt, Pods.Outer.setMachine_self]
    rw [Pods.outcome_of_some hi hr rfl]
    constructor
    · rintro ⟨result, u, p, hends, h⟩
      obtain ⟨hg, rfl, rfl, rfl⟩ := looked.mp hends
      obtain ⟨rfl, rfl, rfl⟩ := h
      refine ⟨hg, ?_, ?_, rfl, ?_, hdealt.symm⟩
      · intro hlocks
        cases hlocks
      · intro hkept
        cases hkept
      · rw [Pods.Store.dealt_of_kept rfl, Pods.Store.put_self hr]
    · rintro ⟨hg, -, -, rfl, rfl, rfl⟩
      refine ⟨.ok r.agent, s, o, looked.mpr ⟨hg, rfl, rfl, rfl⟩, rfl, ?_, hdealt⟩
      rw [Pods.Store.dealt_of_kept rfl, Pods.Store.put_self hr]

/-- A request for one sandbox comes to what it does to the sandbox. -/
theorem comes_iff_outcome {x : Pods.Treatment Answer V G} {a : Answer} (hr : r.Gives id)
    (hx : r.treatment? manners name id = some x) (hf : s.Fair call) (hp : s.Placed) :
    Course.Comes manners backend a t o' (requested name r) call s o ↔ x.Outcome id s o a t o' := by
  cases r with
  | stopPod own =>
    cases hr
    rw [requested_stopPod]
    exact comes_of_treatment hx rfl hf hp
  | removePod own =>
    cases hr
    rw [requested_removePod]
    exact comes_of_treatment hx rfl hf hp
  | podStatus own verbose =>
    cases hr
    rw [requested_podStatus]
    exact comes_of_treatment hx rfl hf hp
  | containers request =>
    rcases hr with hr | ⟨filter, rfl, hr⟩
    · exact comes_forward (serve_of_concerns hr) hx hf hp
    · exact comes_forward (serve_of_listsOf hr) hx hf hp
  | _ => cases hx

end

/-! ### Requests that are served alone -/

namespace Shim
variable {V G : Type} {manners : Pods.Manners V G} {backend id : String} {catalog : Option String} {now : Nat}
  {images : Option Images} {ms : List (Move Answer)} {log : List Pods.Note} {s t : Shim Answer}
  {o o' : Pods.Outer V G} {r : Request} {a : Answer}

/-- A request is received, and answered alone. -/
def Serves (manners : Pods.Manners V G) (s : Shim Answer) (o : Pods.Outer V G) (r : Request) (a : Answer) (t : Shim Answer)
    (o' : Pods.Outer V G) : Prop :=
  Executes manners s o (requested s.pods.backend r) a t o'

theorem Run.fair (h : Run (.new backend catalog now images) ms log s) : s.pods.store.Fair s.pods.calls.length :=
  fun hr => h.pods.counted.fair _ _ hr

theorem plain_of_gives (hr : r.Gives id) : (requested backend r).Uses Act.Plain :=
  (requested_gives hr).mono fun _ hact => hact.imp_left fun ⟨c, hc, _⟩ => ⟨c, hc⟩

section
variable (h : Run (.new backend catalog now images) ms log s) (hr : r.Gives id) {x : Pods.Treatment Answer V G}
  (hx : r.treatment? manners s.pods.backend id = some x)
include h hr hx

theorem Serves.outcome (hs : Serves manners s o r a t o') :
    x.Outcome id s.pods.store o a t.pods.store o' ∧ t.setting = s.setting := by
  obtain ⟨hcomes, hsetting⟩ := Executes.comes (plain_of_gives hr) hs
  exact ⟨(comes_iff_outcome hr hx h.fair h.pods.orderly.placed).mp hcomes, hsetting⟩

theorem exists_serves {st : Pods.Store} (ho : x.Outcome id s.pods.store o a st o') :
    ∃ t, Serves manners s o r a t o' ∧ t.pods.store = st :=
  exists_executes ((comes_iff_outcome hr hx h.fair h.pods.orderly.placed).mpr ho)

end

end Shim

/-! ### Two sandboxes -/

namespace Shim.Tour

/-- Two sandboxes are made, and their samples become too old. -/
def pair : List (Move Answer) :=
  make 0 0 vm 0 ++ make 1 1 ⟨"other", "other"⟩ 1 ++ [.pods (.pass 30001)]

def both : Shim Answer :=
  (first.played pair).2

theorem run_pair : Run first pair (first.played pair).1 both :=
  run_played rfl

/-- Machines that run until they are destroyed, and agents that count what they are asked. -/
def manners : Pods.Manners Bool Nat where
  state v := (.ok (if v then .running else .stopped), v)
  destroy _ := (.ok (), false)
  close g := g
  serve request g := (agent request, g + 1)

/-- One of the machines runs. -/
def outside : Pods.Outer Bool Nat :=
  ⟨fun m => m = vm, fun _ => 0⟩

end Shim.Tour

end PodMachines
