import PodMachines.Proofs.Pods.Accounting
import PodMachines.Proofs.Pods.Directory
import PodMachines.Proofs.Shim.Gathering

/-! Where requests about containers go. A request about one container goes to the agent of the sandbox whose id its
    container's id begins with, and to nobody where there is no such sandbox. Main statement: this holds of every run,
    every such request can be brought to its answer, and the containers of a sandbox stay with its agent. -/

namespace PodMachines
open Service Session

/-! ### Ids of containers -/

/-- Whether a text begins with the id of a sandbox: it is the id, or goes on after it with a colon. -/
def Begins (id text : String) : Prop :=
  ':' ∉ id.toList ∧ (text = id ∨ ∃ token, text = id ++ ":" ++ token)

/-- The sandbox of a container is the one whose id the container's id begins with. -/
theorem Service.sandboxOf_eq_iff {id text : String} : sandboxOf text = id ↔ Begins id text := by
  have hlist : sandboxOf text = id ↔ Text.beforeFirst ':' text.toList = id.toList := by
    constructor
    · rintro rfl
      exact String.toList_ofList.symm
    · intro h
      rw [sandboxOf, h, String.ofList_toList]
  rw [hlist, Text.beforeFirst_eq_iff]
  refine and_congr_right fun _ => or_congr String.toList_inj ⟨?_, ?_⟩
  · rintro ⟨rest, hrest⟩
    exact ⟨String.ofList rest, String.toList_inj.mp (by simpa using hrest)⟩
  · rintro ⟨token, rfl⟩
    exact ⟨token.toList, by simp⟩

/-- The id of the container that a request is about, if it is about one that is there. -/
def Agent.Request.container? : Agent.Request → Option String
  | .startContainer id | .stopContainer id _ | .removeContainer id | .containerStatus id _ => some id
  | .createContainer .. | .listContainers _ => none

/-- Whether a request about one container is for a sandbox: a new container's for the one it names, another's for the
    one whose id its own begins with. -/
def Concerns (request : Agent.Request) (id : String) : Prop :=
  (∃ config sandboxConfig, request = .createContainer id config sandboxConfig) ∨
    ∃ text, request.container? = some text ∧ Begins id text

theorem serve_of_concerns {backend : String} {request : Agent.Request} {id : String} (h : Concerns request id) :
    serve backend (.containers request) = (forward id request).bind Course.answered := by
  obtain ⟨config, sandboxConfig, rfl⟩ | ⟨text, htext, hbegins⟩ := h
  · rfl
  · rw [← sandboxOf_eq_iff] at hbegins
    subst hbegins
    cases request with
    | createContainer | listContainers => cases htext
    | _ => cases htext; rfl

theorem exists_concerns {request : Agent.Request} (h : ∀ filter, request ≠ .listContainers filter) :
    ∃ id, Concerns request id := by
  cases request with
  | createContainer id config sandboxConfig => exact ⟨id, .inl ⟨config, sandboxConfig, rfl⟩⟩
  | listContainers filter => exact absurd rfl (h filter)
  | _ => exact ⟨_, .inr ⟨_, rfl, sandboxOf_eq_iff.mp rfl⟩⟩

/-! ### What is asked and answered -/

/-- What is answered to a request that was forwarded: what the agent answers, the agent's own status, or the status of
    another failure. -/
def conveyed (request : Agent.Request) : Except Failure request.Answer → Answer
  | .ok value => .response (.containers request) value
  | .error (.agent status) => .refused status
  | .error f => .refused f.status

/-- The status that tells that a sandbox is unknown. -/
def unknown (id : String) : Status :=
  ⟨.notFound, "Sandbox not found: " ++ id⟩

/-- What a request comes to that is forwarded to a sandbox's agent: the agent is looked up, and asked if there is
    one. -/
theorem leads_forward {id : String} {request : Agent.Request} {talk : Program.Talk Act Act.Reply}
    {result : Except Failure request.Answer} (h : (forward id request).Leads talk (.done result)) :
    (∃ connection, talk = [⟨.pods (.agent id), .ok connection⟩, ⟨.forward connection request, result⟩]) ∨
      ∃ f, talk = [⟨.pods (.agent id), .error f⟩] ∧
        result = .error (if f.isNotFound then .sandboxMissing id else f) := by
  obtain ⟨looked, rest, found, rfl, hlooked, hrest⟩ := Program.leads_bind_done.mp h
  obtain ⟨reply, more, rfl, hmore⟩ := Program.leads_ask_done.mp hlooked
  cases reply with
  | ok connection =>
    obtain ⟨rfl, hfound⟩ := Program.leads_done.mp hmore
    cases hfound
    obtain ⟨a, last, rfl, hlast⟩ := Program.leads_ask_done.mp hrest
    obtain ⟨rfl, ha⟩ := Program.leads_done.mp hlast
    cases ha
    exact .inl ⟨connection, rfl⟩
  | error f =>
    refine .inr ⟨f, ?_⟩
    cases f <;>
    · obtain ⟨rfl, hfound⟩ := Program.leads_done.mp hmore
      cases hfound
      obtain ⟨rfl, hresult⟩ := Program.leads_done.mp hrest
      cases hresult
      exact ⟨rfl, rfl⟩

/-- A request that is for one sandbox is answered what its forwarding comes to. -/
theorem leads_requested {backend : String} {request : Agent.Request} {id : String}
    (hs : serve backend (.containers request) = (forward id request).bind Course.answered)
    {talk : Program.Talk Act Act.Reply} {answer : Answer}
    (h : (requested backend (.containers request)).Leads talk (.done answer)) :
    ∃ result, (forward id request).Leads talk (.done result) ∧ answer = conveyed request result := by
  rw [requested, hs] at h
  obtain ⟨first, rest, served, rfl, hfirst, hrest⟩ := Program.leads_bind_done.mp h
  obtain ⟨rfl, hanswer⟩ := Program.leads_done.mp hrest
  cases hanswer
  obtain ⟨inner, last, result, rfl, hinner, hlast⟩ := Program.leads_bind_done.mp hfirst
  refine ⟨result, ?_⟩
  cases result with
  | ok value =>
    obtain ⟨rfl, hserved⟩ := Program.leads_done.mp hlast
    cases hserved
    simpa using ⟨hinner, rfl⟩
  | error f =>
    obtain ⟨rfl, hserved⟩ := Program.leads_done.mp hlast
    cases hserved
    refine ⟨by simpa using hinner, ?_⟩
    cases f <;> rfl

namespace Shim
variable {α : Type} {backend : String} {catalog : Option String} {now : Nat} {images : Option Images}
  {first s t u : Shim α} {ms more : List (Move α)} {log earlier since after : List Pods.Note} {n : Nat} {id : String}

/-- A job that has been replied so much is about to look up a sandbox's agent. -/
def LooksUp (s : Shim α) (n : Nat) (talk : Program.Talk Act Act.Reply) (id : String) : Prop :=
  ∃ result, s.Looks n talk (.agent id) result

/-- How a sandbox's agent is looked up and asked: by what is in the directory, what is forwarded, and what comes of
    it. -/
inductive Asked (s : Shim α) (id : String) (request : Agent.Request) : List Forwarded →
    Except Failure request.Answer → Prop
  | found {i : Nat} {r : Pods.Record} (hi : s.pods.store.directory.find? id = some i)
      (hr : s.pods.store.records[i]? = some r) (hid : r.id = id) (result : Except Failure request.Answer) :
      Asked s id request [⟨r.agent, request, result⟩] result
  | missing (hi : s.pods.store.directory.find? id = none) : Asked s id request [] (.error (.sandboxMissing id))

/-- What a job was told that looked up an agent, by what the directory held. -/
theorem Looks.agent_cases (hplaced : s.pods.store.Placed) {talk : Program.Talk Act Act.Reply}
    {result : Except Failure Connection} (h : s.Looks n talk (.agent id) result) :
    (∃ i r, s.pods.store.directory.find? id = some i ∧ s.pods.store.records[i]? = some r ∧ r.id = id ∧
        result = .ok r.agent) ∨
      (s.pods.store.directory.find? id = none ∧ result = .error (.noSandbox id)) := by
  obtain ⟨job, k, -, -, -, -, hglance⟩ := h
  simp only [Pods.Store.glance, Option.some.injEq] at hglance
  subst hglance
  cases hi : s.pods.store.directory.find? id with
  | none => exact .inr ⟨rfl, rfl⟩
  | some i =>
    obtain ⟨b, hb, hid⟩ := hplaced id i hi
    obtain ⟨r, hr, rfl⟩ := Option.map_eq_some_iff.mp hb
    refine .inl ⟨i, r, rfl, hr, hid, ?_⟩
    simp only [Option.bind_some, hr]

/-- What a job forwards to a sandbox's agent goes where the directory leads when the job looks there. -/
theorem Seen.asked {job : Job α} {request : Agent.Request} {talk piece rest : Program.Talk Act Act.Reply}
    {result : Except Failure request.Answer} (h : Seen first ms log t n job)
    (hplaced : ∀ {s since}, Passes first ms log t s since → s.pods.store.Placed) (htalk : job.talk = talk ++ piece ++ rest)
    (hpiece : (forward id request).Leads piece (.done result)) :
    ∃ s since, Passes first ms log t s since ∧ s.LooksUp n talk id ∧ Asked s id request (forwarded piece) result := by
  obtain ⟨connection, rfl⟩ | ⟨f, rfl, rfl⟩ := leads_forward hpiece
  · rw [List.append_assoc] at htalk
    obtain ⟨s, since, hp, hl⟩ := h.told htalk (.inl ⟨id, rfl⟩)
    obtain ⟨i, r, hi, hr, hid, hconnection⟩ | ⟨-, hmissing⟩ := hl.agent_cases (hplaced hp)
    · cases hconnection
      exact ⟨s, since, hp, ⟨_, hl⟩, .found hi hr hid result⟩
    · cases hmissing
  · rw [List.append_assoc] at htalk
    obtain ⟨s, since, hp, hl⟩ := h.told htalk (.inl ⟨id, rfl⟩)
    obtain ⟨i, r, -, -, -, hfound⟩ | ⟨hi, hmissing⟩ := hl.agent_cases (hplaced hp)
    · cases hfound
    · cases hmissing
      exact ⟨s, since, hp, ⟨_, hl⟩, .missing hi⟩

theorem Run.placed (h₀ : Run (.new backend catalog now images) more earlier first)
    (hp : Passes first ms log t s since) : s.pods.store.Placed := by
  obtain ⟨before, rest, noted, -, -, hbefore, -⟩ := hp
  exact (h₀.trans hbefore).pods.orderly.placed

section
variable {s t u : Shim Answer} {first : Shim Answer} {ms more : List (Move Answer)} {job : Job Answer}
  {request : Agent.Request} {answer : Answer} {name : String}

/-- A request that is for one sandbox is asked and answered as the directory is when its job looks there. -/
theorem Run.routed (h₀ : Run (.new backend catalog now images) more earlier first) (h : Run first ms log t)
    (hn : first.jobs.length ≤ n) (hj : t.jobs[n]? = some job)
    (hcourse : job.course = requested name (.containers request))
    (hs : serve name (.containers request) = (forward id request).bind Course.answered)
    (hleft : job.left = Program.done answer) :
    ∃ s since result, Passes first ms log t s since ∧ s.LooksUp n [] id ∧
      Asked s id request (forwarded job.talk) result ∧ answer = conveyed request result := by
  have hleads := (h.sound hn hj).leads
  rw [hcourse, hleft] at hleads
  obtain ⟨result, hpiece, hanswer⟩ := leads_requested hs hleads
  have htalk : job.talk = [] ++ job.talk ++ [] := by rw [List.nil_append, List.append_nil]
  obtain ⟨s, since, hp, hl, ha⟩ := (h.seen hn hj).asked (fun hp => h₀.placed hp) htalk hpiece
  exact ⟨s, since, result, hp, hl, ha, hanswer⟩

/-- What a sandbox's agent was asked once, it is asked later, until the sandbox is removed or one is made with its
    id. -/
theorem Run.routed_later (h : Run (.new backend catalog now images) ms log t)
    (hpass : Passes (.new backend catalog now images) ms log t s since) {i : Nat} {r : Pods.Record}
    (hi : s.pods.store.directory.find? id = some i) (hr : s.pods.store.records[i]? = some r) (hrun : Run t more after u)
    (hn : t.jobs.length ≤ n) (hj : u.jobs[n]? = some job)
    (hcourse : job.course = requested name (.containers request)) (hconcerns : Concerns request id)
    (hleft : job.left = Program.done answer) (hmakes : ∀ e ∈ since ++ after, ¬e.Makes id) :
    ((∀ e ∈ since ++ after, ¬e.Drops i) → ∃ result, forwarded job.talk = [⟨r.agent, request, result⟩] ∧
        answer = conveyed request result) ∧
      ((∃ e ∈ since, e.Drops i) → forwarded job.talk = [] ∧ answer = .refused (unknown id)) := by
  obtain ⟨v, later, result, ⟨before, rest, noted, rfl, rfl, hbefore, -⟩, -, hasked, rfl⟩ :=
    h.routed hrun hn hj hcourse (serve_of_concerns hconcerns) hleft
  obtain ⟨start, way, first, rfl, rfl, hstart, hway⟩ := hpass
  have hmore := (hway.trans hbefore).pods
  generalize forwarded job.talk = forwards at hasked
  obtain ⟨hkept, hgone⟩ := hstart.pods.find?_since hmore hi fun e he =>
    hmakes e (by rw [← List.append_assoc]; exact List.mem_append_left _ he)
  constructor
  · intro hdrops
    have hi' := hkept fun e he => hdrops e (by rw [← List.append_assoc]; exact List.mem_append_left _ he)
    cases hasked with
    | @found j r' hj' hr' hid result =>
      obtain rfl := Option.some.inj (hj'.symm.trans hi')
      have horigin := hmore.grows _ _ (Pods.Store.origins_eq hr)
      have hagent : r'.agent = r.agent :=
        congrArg Pods.Origin.agent (Option.some.inj ((Pods.Store.origins_eq hr').symm.trans horigin))
      exact ⟨result, by rw [← hagent], rfl⟩
    | missing hnone => cases hnone.symm.trans hi'
  · rintro ⟨e, he, hdrop⟩
    have hnone := hgone ⟨e, List.mem_append_left _ he, hdrop⟩
    cases hasked with
    | found hj' => cases hnone.symm.trans hj'
    | missing => exact ⟨rfl, rfl⟩

/-- A request about containers can be brought to its answer from wherever it is, whatever the agents answer. -/
theorem Run.answers (h : Run (.new backend catalog now images) ms log t) (hj : t.jobs[n]? = some job)
    (hcourse : job.course = requested name (.containers request))
    (agent : Connection → (request : Agent.Request) → Except Failure request.Answer) :
    ∃ more after u job' answer, Run t more after u ∧ u.jobs[n]? = some job' ∧ job'.course = job.course ∧
      job'.left = Program.done answer ∧
      ∀ f ∈ forwarded job'.talk, f ∈ forwarded job.talk ∨ f.answer = agent f.connection f.request := by
  obtain ⟨id, hs⟩ | ⟨filter, rfl, hall⟩ := serveContainers_cases request
  · have hleads := (h.sound (Nat.zero_le n) hj).leads
    have huses : (requested name (.containers request)).Uses OnlyLooks := by
      have hserve : serve name (.containers request) = _ := hs
      rw [requested, hserve]
      refine ((forward_uses id request (.inl ⟨_, rfl, .inl ⟨id, rfl⟩⟩) fun connection => ?_).bind answered_uses).bind
        fun _ => trivial
      exact .inr ⟨connection, request, rfl⟩
    have hsturdy : (requested name (.containers request)).Sturdy := (serveContainers_sturdy request).bind fun _ => trivial
    rw [hcourse] at hleads
    obtain ⟨more, after, u, job', answer, hrun, hu, hleft, hforwarded⟩ :=
      h.completes hj (hleads.uses huses) (hleads.sturdy hsturdy) agent
    obtain ⟨job'', hu', hkept⟩ := hrun.kept hj
    cases hu.symm.trans hu'
    exact ⟨more, after, u, job', answer, hrun, hu, hkept, hleft, hforwarded⟩
  · obtain ⟨more, after, u, job', containers, hrun, hu, hkept, hleft, -⟩ := h.gathers agent hj hall hcourse
    have hleads := ((h.trans hrun).sound (Nat.zero_le n) hu).leads
    rw [hkept, hcourse] at hleads
    refine ⟨more, after, u, job', _, hrun, hu, hkept, hleft, fun f hf => ?_⟩
    rw [(gathering_of_leads hall hleads).forwarded_eq] at hf
    exact absurd hf List.not_mem_nil

end

/-- How a request is routed that is for one sandbox: where the directory leads to the sandbox's record, it is forwarded
    once and to the sandbox's agent, and the answer is the agent's; else it is forwarded to nobody, and the sandbox is
    unknown. -/
def Routes (s : Shim α) (id : String) (request : Agent.Request) (forwards : List Forwarded) (answer : Answer) : Prop :=
  (∃ i r result, s.pods.store.directory.find? id = some i ∧ s.pods.store.records[i]? = some r ∧ r.id = id ∧
      forwards = [⟨r.agent, request, result⟩] ∧ answer = conveyed request result) ∨
    (s.pods.store.directory.find? id = none ∧ forwards = [] ∧ answer = .refused (unknown id))

theorem Asked.routes {request : Agent.Request} {forwards : List Forwarded} {result : Except Failure request.Answer}
    (h : Asked s id request forwards result) : s.Routes id request forwards (conveyed request result) := by
  cases h with
  | @found i r hi hr hid result => exact .inl ⟨i, r, result, hi, hr, hid, rfl, rfl⟩
  | missing hi => exact .inr ⟨hi, rfl, rfl⟩

/-- How requests about one container are routed in a run. -/
structure Routed (first : Shim Answer) (ms : List (Move Answer)) (log : List Pods.Note) (t : Shim Answer) : Prop where
  /-- A request that is answered was for one sandbox, and was routed as the directory was when its job looked there,
      while it was under way. -/
  exact : ∀ {n : Nat} {job : Job Answer} {name : String} {request : Agent.Request} {answer : Answer},
    t.jobs[n]? = some job → job.course = requested name (.containers request) →
    (∀ filter, request ≠ .listContainers filter) → job.left = Program.done answer →
      ∃ id s since, Concerns request id ∧ Passes first ms log t s since ∧ s.LooksUp n [] id ∧
        s.Routes id request (forwarded job.talk) answer
  /-- A request can be brought to its answer from wherever it is, whatever the agents answer. -/
  answered : ∀ {n : Nat} {job : Job Answer} {name : String} {request : Agent.Request}, t.jobs[n]? = some job →
    job.course = requested name (.containers request) →
    ∀ agent : Connection → (request : Agent.Request) → Except Failure request.Answer,
      ∃ more after u job' answer, Run t more after u ∧ u.jobs[n]? = some job' ∧ job'.course = job.course ∧
        job'.left = Program.done answer ∧
        ∀ f ∈ forwarded job'.talk, f ∈ forwarded job.talk ∨ f.answer = agent f.connection f.request
  /-- When a sandbox's agent has named a new container after the sandbox, later requests about the container go to the
      same agent, until the sandbox is removed, from when on it is unknown, or a sandbox is made with the same id. -/
  stays : ∀ {m : Nat} {job : Job Answer} {name id token : String} {config : Option Message.ContainerConfig}
    {sandboxConfig : Option Message.PodConfig}, t.jobs[m]? = some job →
    job.course = requested name (.containers (.createContainer id config sandboxConfig)) → ':' ∉ id.toList →
    job.left = Program.done (.response (.containers (.createContainer id config sandboxConfig)) (id ++ ":" ++ token)) →
      ∃ s since i r, Passes first ms log t s since ∧ s.LooksUp m [] id ∧
        s.pods.store.directory.find? id = some i ∧ s.pods.store.records[i]? = some r ∧
        forwarded job.talk = [⟨r.agent, .createContainer id config sandboxConfig, .ok (id ++ ":" ++ token)⟩] ∧
        ∀ {more : List (Move Answer)} {after : List Pods.Note} {u : Shim Answer} {n : Nat} {job' : Job Answer}
          {name' : String} {request : Agent.Request} {answer : Answer}, Run t more after u → t.jobs.length ≤ n →
          u.jobs[n]? = some job' → job'.course = requested name' (.containers request) →
          request.container? = some (id ++ ":" ++ token) → job'.left = Program.done answer →
          (∀ e ∈ since ++ after, ¬e.Makes id) →
            ((∀ e ∈ since ++ after, ¬e.Drops i) → ∃ result, forwarded job'.talk = [⟨r.agent, request, result⟩] ∧
                answer = conveyed request result) ∧
              ((∃ e ∈ since, e.Drops i) → forwarded job'.talk = [] ∧ answer = .refused (unknown id))

theorem containers_routed {ms : List (Move Answer)} {t : Shim Answer}
    (h : Run (.new backend catalog now images) ms log t) : Routed (.new backend catalog now images) ms log t where
  exact := by
    intro n job name request answer hj hcourse hone hleft
    obtain ⟨id, hconcerns⟩ := exists_concerns hone
    obtain ⟨s, since, result, hp, hl, hasked, rfl⟩ :=
      Run.routed .rest h (Nat.zero_le n) hj hcourse (serve_of_concerns hconcerns) hleft
    exact ⟨id, s, since, hconcerns, hp, hl, hasked.routes⟩
  answered hj hcourse agent := h.answers hj hcourse agent
  stays := by
    intro m job name id token config sandboxConfig hj hcourse hid hleft
    obtain ⟨s, since, result, hp, hl, hasked, hanswer⟩ :=
      Run.routed .rest h (Nat.zero_le m) hj hcourse (serve_of_concerns (.inl ⟨config, sandboxConfig, rfl⟩)) hleft
    generalize hforwards : forwarded job.talk = forwards at hasked
    cases hasked with
    | missing hi => cases hanswer
    | @found i r hi hr hrid result =>
      cases result with
      | error f => cases f <;> cases hanswer
      | ok value =>
        cases hanswer
        refine ⟨s, since, i, r, hp, hl, hi, hr, rfl, ?_⟩
        intro more after u n job' name' request answer hrun hn hj' hcourse' htext hleft' hmakes
        exact h.routed_later hp hi hr hrun hn hj' hcourse' (.inr ⟨_, htext, hid, .inr ⟨token, rfl⟩⟩) hleft' hmakes

/-- In the tour a container is made and started by the agent of its sandbox, which fails to stop it. When the sandbox
    is removed nobody is asked. -/
theorem containers_routed_tour :
    Routed Tour.first Tour.moves Tour.log Tour.final ∧
      ([1, 2, 3, 7, 8].map fun n => Tour.final.jobs[n]?.map fun job => (forwarded job.talk).map (·.connection)) =
        [some [0], some [0], some [0], some [], some []] ∧
      ([3, 7, 8].map fun n => Tour.final.jobs[n]?.map fun job => job.left) =
        [some (Program.done (.refused Tour.broken)), some (Program.done (.refused (unknown "vm"))),
          some (Program.done (.refused (unknown "other")))] :=
  ⟨containers_routed Tour.run, rfl, rfl⟩

/-- When another machine gets the id of a sandbox that is there, a container that the sandbox's agent has named after it
    goes to another agent, though no sandbox is ever removed. -/
theorem container_moves_on_reuse :
    ∃ log t job job', Run Tour.first Tour.reuse log t ∧ (∀ e ∈ log, e.deed.removes = false) ∧
      t.jobs[1]? = some job ∧ job.course = requested "fake" (.containers (.createContainer "vm" none none)) ∧
      job.left = Program.done (.response (.containers (.createContainer "vm" none none)) ("vm" ++ ":" ++ "c1")) ∧
      (forwarded job.talk).map (·.connection) = [0] ∧
      t.jobs[3]? = some job' ∧ job'.course = requested "fake" (.containers (.startContainer ("vm" ++ ":" ++ "c1"))) ∧
      job'.left = Program.done (.response (.containers (.startContainer ("vm" ++ ":" ++ "c1"))) ()) ∧
      (forwarded job'.talk).map (·.connection) = [1] := by
  refine ⟨_, _, _, _, run_played rfl, ?_, rfl, rfl, rfl, rfl, rfl, rfl, rfl, rfl⟩
  have none : ((Tour.first.played Tour.reuse).1.all fun e => !e.deed.removes) = true := rfl
  simpa using none

end Shim
end PodMachines
