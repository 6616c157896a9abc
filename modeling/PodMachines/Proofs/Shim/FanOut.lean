import PodMachines.Proofs.Shim.Imaging
import PodMachines.Proofs.Shim.Routing

/-! Where requests for containers go. One that names a sandbox or a container goes to one agent; any other inquires of
    all sandboxes that the directory holds when it looks, all at the same time. Main statement: who is asked, and that
    the answer holds what each agent answered that did not fail, and nothing else. -/

namespace PodMachines
open Service Session

/-! ### Filters -/

/-- Whether a filter asks for the containers of one sandbox: the one that it names, else the one that would be asked for
    the status of the container that it names. -/
def ListsOf (filter : Option Message.ContainerFilter) (id : String) : Prop :=
  ∃ f, filter = some f ∧
    (f.podSandboxId ≠ "" ∧ f.podSandboxId = id ∨
      f.podSandboxId = "" ∧ f.id ≠ "" ∧ ∀ verbose, Concerns (.containerStatus f.id verbose) id)

/-- Whether a filter names neither a sandbox nor a container. -/
def ListsAll (filter : Option Message.ContainerFilter) : Prop :=
  ∀ f, filter = some f → f.podSandboxId = "" ∧ f.id = ""

theorem listedSandbox_of_listsOf {filter : Option Message.ContainerFilter} {id : String} (h : ListsOf filter id) :
    listedSandbox filter = some id := by
  obtain ⟨f, rfl, ⟨hne, rfl⟩ | ⟨hempty, hne, hconcerns⟩⟩ := h
  · simp [listedSandbox, hne]
  · obtain ⟨config, sandboxConfig, heq⟩ | ⟨text, htext, hbegins⟩ := hconcerns false
    · cases heq
    · cases htext
      simp [listedSandbox, hempty, hne, sandboxOf_eq_iff.mpr hbegins]

theorem listedSandbox_of_listsAll {filter : Option Message.ContainerFilter} (h : ListsAll filter) :
    listedSandbox filter = none := by
  cases filter with
  | none => rfl
  | some f =>
    obtain ⟨hsandbox, hid⟩ := h f rfl
    simp [listedSandbox, hsandbox, hid]

theorem listsOf_or_listsAll (filter : Option Message.ContainerFilter) : (∃ id, ListsOf filter id) ∨ ListsAll filter := by
  cases filter with
  | none => exact .inr nofun
  | some f =>
    by_cases hsandbox : f.podSandboxId = ""
    · by_cases hid : f.id = ""
      · refine .inr fun g hg => ?_
        cases hg
        exact ⟨hsandbox, hid⟩
      · exact .inl ⟨_, f, rfl, .inr ⟨hsandbox, hid, fun _ => .inr ⟨_, rfl, sandboxOf_eq_iff.mp rfl⟩⟩⟩
    · exact .inl ⟨_, f, rfl, .inl ⟨hsandbox, rfl⟩⟩

theorem serve_of_listsOf {backend id : String} {filter : Option Message.ContainerFilter} (h : ListsOf filter id) :
    serve backend (.containers (.listContainers filter)) =
      (forward id (.listContainers filter)).bind Course.answered := by
  simp only [serve, serveContainers, listedSandbox_of_listsOf h]
  rfl

namespace Shim
variable {α : Type} {backend : String} {catalog : Option String} {now : Nat} {images : Option Images}
  {s t u v : Shim α} {ms more : List (Move α)} {log since after : List Pods.Note} {n k : Nat} {id : String} {i : Inquiry}
  {filter : Option Message.ContainerFilter}

/-! ### Inquiries -/

/-- An inquiry is about to look up a sandbox's agent. -/
def Seeks (s : Shim α) (k : Nat) (id : String) : Prop :=
  ∃ i number, s.inquiries[k]? = some i ∧ i.talk = [] ∧ i.call = some number ∧
    s.pods.calls[number]? = some ⟨.agent id, .inside .lookup⟩

theorem Seeks.begun (h : s.Seeks k id) : ∃ i, s.inquiries[k]? = some i := by
  obtain ⟨i, -, hi, -⟩ := h
  exact ⟨i, hi⟩

theorem Mirrors.seeks {x : Shim (Except Failure (List Message.Container))} (h : x.Mirrors s) (hl : x.LooksUp k [] id) :
    s.Seeks k id := by
  obtain ⟨hpods, rest, hrest⟩ := h
  obtain ⟨-, i, number, hi, htalk, hcall, hp, -⟩ := hl
  refine ⟨i, number, ?_, htalk, hcall, hpods ▸ hp⟩
  rw [← hrest, List.getElem?_append_left (List.getElem?_eq_some_iff.mp hi).1, hi]

theorem Mirrors.asked {x : Shim (Except Failure (List Message.Container))} (h : x.Mirrors s) {request : Agent.Request}
    {asked : List Forwarded} {result : Except Failure request.Answer} (ha : Asked x id request asked result) :
    Asked s id request asked result := by
  cases ha with
  | found hi hr hid => exact .found (h.1 ▸ hi) (h.1 ▸ hr) hid result
  | missing hi => exact .missing (h.1 ▸ hi)

/-- An inquiry that is over looked up its sandbox's agent at a state that the run passed, and asked the agent that the
    directory led to there. -/
theorem Run.inquiry_asked (h : Run (.new backend catalog now images) ms log t) (hi : t.inquiries[k]? = some i)
    (hcourse : i.course = inquiry filter id) {result : Except Failure (List Message.Container)}
    (hleft : i.left = Program.done result) :
    ∃ s since, Passes (.new backend catalog now images) ms log t s since ∧ s.Seeks k id ∧
      Asked s id (.listContainers filter) (forwarded i.talk) result := by
  have hleads := (h.inquiry_sound hi).1
  rw [hcourse, hleft] at hleads
  obtain ⟨ms', v, hv, -, hjobs, hpasses⟩ := h.mirrored
  have htalk : i.talk = [] ++ i.talk ++ [] := by rw [List.nil_append, List.append_nil]
  obtain ⟨x, since, hp, hl, ha⟩ :=
    (hv.seen (Nat.zero_le k) (hjobs ▸ hi)).asked (fun hp => Run.placed .rest hp) htalk hleads
  obtain ⟨s, hs, hmirrors⟩ := hpasses hp
  exact ⟨s, since, hs, hmirrors.seeks hl, hmirrors.asked ha⟩

/-- Whether a sandbox is neither removed nor replaced by another with its id. -/
def Stays (notes : List Pods.Note) (id : String) (record : Nat) : Prop :=
  ∀ e ∈ notes, ¬e.Drops record ∧ ¬e.Makes id

/-- What became of an inquiry about a sandbox that was in the directory at a state: it is over, and on the way it looked
    up the sandbox's agent once and asked it. It has asked the agent that the sandbox had if the sandbox has stayed until
    it was looked up. -/
structure Inquired (s : Shim α) (since : List Pods.Note) (t : Shim α) (filter : Option Message.ContainerFilter)
    (id : String) (k : Nat) (asked : List Forwarded) (result : Except Failure (List Message.Container)) : Prop where
  ended : ∃ i, t.inquiries[k]? = some i ∧ i.course = inquiry filter id ∧ forwarded i.talk = asked ∧
    i.left = Program.done result
  looked : ∃ v mid noted later, Run s mid noted v ∧ since = noted ++ later ∧ v.Seeks k id ∧
    Asked v id (.listContainers filter) asked result ∧ ∀ {record : Nat} {r : Pods.Record},
      s.pods.store.directory.find? id = some record → s.pods.store.records[record]? = some r → Stays noted id record →
        asked = [⟨r.agent, .listContainers filter, result⟩]

theorem Asked.eq_of_stays (h : Run (.new backend catalog now images) ms log s) (hrun : Run s more after v) {record : Nat}
    {r : Pods.Record} (hi : s.pods.store.directory.find? id = some record) (hr : s.pods.store.records[record]? = some r)
    (hstays : Stays after id record) {request : Agent.Request} {asked : List Forwarded}
    {result : Except Failure request.Answer} (ha : Asked v id request asked result) :
    asked = [⟨r.agent, request, result⟩] := by
  have hkept := (h.pods.find?_since hrun.pods hi fun e he => (hstays e he).2).1 fun e he => (hstays e he).1
  cases ha with
  | @found record' r' hi' hr' hid result =>
    obtain rfl := Option.some.inj (hi'.symm.trans hkept)
    have horigin := hrun.pods.grows _ _ (Pods.Store.origins_eq hr)
    have hagent : r'.agent = r.agent :=
      congrArg Pods.Origin.agent (Option.some.inj ((Pods.Store.origins_eq hr').symm.trans horigin))
    rw [hagent]
  | missing hnone => cases hnone.symm.trans hkept

/-- How the agents of several sandboxes are looked up and asked that were in the directory at a state: what is forwarded
    by each inquiry, and what each comes to. -/
inductive Spread (s : Shim α) (since : List Pods.Note) (t : Shim α) (filter : Option Message.ContainerFilter) :
    List String → List Nat → List Forwarded → List (Except Failure (List Message.Container)) → Prop
  | done : Spread s since t filter [] [] [] []
  | ask {id : String} {ids : List String} {k : Nat} {numbers : List Nat} {asked forwards : List Forwarded}
      {result : Except Failure (List Message.Container)} {results : List (Except Failure (List Message.Container))}
      (h : Inquired s since t filter id k asked result) (rest : Spread s since t filter ids numbers forwards results) :
      Spread s since t filter (id :: ids) (k :: numbers) (asked ++ forwards) (result :: results)

theorem exists_spread {ids : List String} {numbers : List Nat} {results : List (Except Failure (List Message.Container))}
    (hbegun : List.Forall₂ (fun id k => ∃ i, t.inquiries[k]? = some i ∧ i.course = inquiry filter id) ids numbers)
    (hover : List.Forall₂ (fun k result => ∃ i, t.inquiries[k]? = some i ∧ i.left = Program.done result) numbers results)
    (h : ∀ {k id i result}, k ∈ numbers → t.inquiries[k]? = some i → i.course = inquiry filter id →
      i.left = Program.done result → Inquired s since t filter id k (forwarded i.talk) result) :
    Spread s since t filter ids numbers
      (numbers.flatMap fun k => (t.inquiries[k]?.map fun i => forwarded i.talk).getD []) results := by
  induction hbegun generalizing results with
  | nil =>
    cases hover
    exact .done
  | cons hfirst _ ih =>
    obtain _ | ⟨hend, hrest⟩ := hover
    obtain ⟨i, hi, hcourse⟩ := hfirst
    obtain ⟨i', hi', hleft⟩ := hend
    cases hi.symm.trans hi'
    rw [List.flatMap_cons, hi]
    exact .ask (h List.mem_cons_self hi hcourse hleft) (ih hrest fun hk => h (List.mem_cons_of_mem _ hk))

/-- The containers that the agents answered which did not fail, each agent's after those of the agents before it. -/
def collected : List (Except Failure (List Message.Container)) → List Message.Container
  | [] => []
  | .ok containers :: rest => containers ++ collected rest
  | .error _ :: rest => collected rest

theorem flatMap_listed (results : List (Except Failure (List Message.Container))) :
    results.flatMap listed = collected results := by
  induction results with
  | nil => rfl
  | cons result rest ih =>
    rw [List.flatMap_cons, ih]
    cases result <;> rfl

/-- A request for containers, and what it came to. -/
def Forwarded.listing (filter : Option Message.ContainerFilter) (agent : Connection)
    (result : Except Failure (List Message.Container)) : Forwarded :=
  ⟨agent, .listContainers filter, result⟩

/-- The agent of a sandbox. -/
def agent? (s : Shim α) (id : String) : Option Connection :=
  ((s.pods.store.directory.find? id).bind (s.pods.store.records[·]?)).map (·.agent)

theorem Spread.forwards_eq {ids : List String} {numbers : List Nat} {forwards : List Forwarded}
    {results : List (Except Failure (List Message.Container))} (h : Spread s since t filter ids numbers forwards results)
    (hplaced : s.pods.store.Placed)
    (hstays : ∀ id ∈ ids, ∃ record, s.pods.store.directory.find? id = some record ∧ Stays since id record) :
    ∃ agents : List Connection, ids.map s.agent? = agents.map some ∧ results.length = agents.length ∧
      forwards = List.zipWith (Forwarded.listing filter) agents results := by
  induction h with
  | done => exact ⟨[], rfl, rfl, rfl⟩
  | @ask id ids k numbers asked forwards result results h _ ih =>
    obtain ⟨agents, hagents, hlength, rfl⟩ := ih fun id hid => hstays id (List.mem_cons_of_mem _ hid)
    obtain ⟨record, hi, hstay⟩ := hstays id List.mem_cons_self
    obtain ⟨b, hb, -⟩ := hplaced id record hi
    obtain ⟨r, hr, -⟩ := Option.map_eq_some_iff.mp hb
    obtain ⟨v, mid, noted, later, -, rfl, -, -, hasked⟩ := h.looked
    obtain rfl := hasked hi hr fun e he => hstay e (List.mem_append_left _ he)
    have hagent : s.agent? id = some r.agent := by rw [agent?, hi, Option.bind_some, hr, Option.map_some]
    refine ⟨r.agent :: agents, ?_, congrArg (· + 1) hlength, rfl⟩
    rw [List.map_cons, List.map_cons, hagent, hagents]

/-! ### Requests for containers -/

/-- What becomes of a request for containers when its job has ended, and before. -/
structure Listed (first : Shim Answer) (ms : List (Move Answer)) (log : List Pods.Note) (t : Shim Answer) : Prop where
  /-- A request for the containers of one sandbox was routed as the directory was when its job looked there. Any other
      is answered with containers: the job looked which sandboxes there were, and began an inquiry for each, of which
      each has looked up and asked the agent of its sandbox. The answer is all that the agents answered, in the order of
      the sandboxes, less those that failed. Where all these sandboxes have stayed, the agent of each was asked once. -/
  routed : ∀ {n : Nat} {job : Job Answer} {name : String} {filter : Option Message.ContainerFilter} {answer : Answer},
    t.jobs[n]? = some job → job.course = requested name (.containers (.listContainers filter)) →
    job.left = Program.done answer →
      (∃ id s since, ListsOf filter id ∧ Passes first ms log t s since ∧ s.LooksUp n [] id ∧
          s.Routes id (.listContainers filter) (t.forwards job) answer) ∨
        ListsAll filter ∧ ∃ s since results, Passes first ms log t s since ∧
          s.Looks n [] .ids s.pods.store.directory.keys ∧ s.pods.store.directory.keys.Nodup ∧
          job.inquiries.Nodup ∧
          answer = .response (.containers (.listContainers filter)) (collected results) ∧
          Spread s since t filter s.pods.store.directory.keys job.inquiries (t.forwards job) results ∧
          ((∀ id record, s.pods.store.directory.find? id = some record → Stays since id record) →
            ∃ agents : List Connection, s.pods.store.directory.keys.map s.agent? = agents.map some ∧
              results.length = agents.length ∧ t.forwards job = List.zipWith (Forwarded.listing filter) agents results)
  /-- No inquiry is for two jobs. -/
  apart : ∀ {n n' k : Nat} {job job' : Job Answer}, t.jobs[n]? = some job → t.jobs[n']? = some job' →
    k ∈ job.inquiries → k ∈ job'.inquiries → n = n'
  /-- A request can be brought to its answer from wherever it is, whatever the agents answer, and for the containers of
      all sandboxes the answer is no refusal. -/
  answered : ∀ {n : Nat} {job : Job Answer} {name : String} {filter : Option Message.ContainerFilter},
    t.jobs[n]? = some job → job.course = requested name (.containers (.listContainers filter)) →
    ∀ agent : Connection → (request : Agent.Request) → Except Failure request.Answer,
      ∃ more after u job' answer, Run t more after u ∧ u.jobs[n]? = some job' ∧ job'.course = job.course ∧
        job'.left = Program.done answer ∧
        (∀ f ∈ u.forwards job', f ∈ t.forwards job ∨ f.answer = agent f.connection f.request) ∧
        (ListsAll filter → ∃ containers, answer = .response (.containers (.listContainers filter)) containers)

section
variable {s t v : Shim Answer} {ms : List (Move Answer)} {job : Job Answer} {name : String} {answer : Answer}

theorem inquiries_eq_nil {request : Agent.Request} (hs : serve name (.containers request) =
      (forward id request).bind Course.answered)
    (hleads : (requested name (.containers request)).Leads job.talk (.done answer)) : job.inquiries = [] := by
  obtain ⟨result, hforward, -⟩ := leads_requested hs hleads
  obtain ⟨connection, htalk⟩ | ⟨f, htalk, -⟩ := leads_forward hforward <;> rw [Job.inquiries, htalk] <;> rfl

theorem forwards_eq_forwarded {request : Agent.Request} (hs : serve name (.containers request) =
      (forward id request).bind Course.answered)
    (hleads : (requested name (.containers request)).Leads job.talk (.done answer)) :
    t.forwards job = forwarded job.talk := by
  rw [forwards, inquiries_eq_nil hs hleads, List.flatMap_nil, List.append_nil]

/-- The inquiries of a request about containers are over when it is answered. -/
theorem Run.inquiries_over (h : Run (.new backend catalog now images) ms log t) (hj : t.jobs[n]? = some job)
    {request : Agent.Request} (hcourse : job.course = requested name (.containers request))
    (hleft : job.left = Program.done answer) (hk : k ∈ job.inquiries) :
    ∃ i result, t.inquiries[k]? = some i ∧ i.left = Program.done result := by
  have hleads := (h.sound (Nat.zero_le n) hj).leads
  rw [hcourse, hleft] at hleads
  obtain ⟨id, hs⟩ | ⟨filter, rfl, hall⟩ := serveContainers_cases request
  · rw [inquiries_eq_nil hs hleads] at hk
    exact absurd hk List.not_mem_nil
  · have hgathering := gathering_of_leads hall hleads
    generalize htalk : job.talk = talk at hgathering
    cases hgathering with
    | lists ids numbers results =>
      have hmem : (⟨.await numbers, results⟩ : (act : Act) × act.Reply) ∈ job.talk :=
        htalk ▸ List.mem_cons_of_mem _ (List.mem_cons_of_mem _ List.mem_cons_self)
      have hnumbers : job.inquiries = numbers := by
        rw [Job.inquiries, htalk]
        exact List.append_nil _
      have hover := (h.accounted (Nat.zero_le n) hj).ended hmem
      obtain ⟨m, hm, rfl⟩ := List.getElem_of_mem (hnumbers ▸ hk)
      obtain ⟨i, hi, hdone⟩ := hover.get hm (hover.length_eq ▸ hm)
      exact ⟨i, _, hi, hdone⟩

/-- A state in which an inquiry is there comes after those in which its job had not been replied anything. -/
theorem Run.inquiry_after (h : Run (.new backend catalog now images) ms log t) (hj : t.jobs[n]? = some job)
    {talk rest : Program.Talk Act Act.Reply} {ids : List String} {numbers : List Nat}
    (htalk : job.talk = talk ++ ⟨.inquire filter ids, numbers⟩ :: rest) (htalk' : talk ≠ []) (hk : k ∈ numbers)
    (hs : Passes (.new backend catalog now images) ms log t s since) {old : Job Answer} (hold : s.jobs[n]? = some old)
    (hnone : old.talk = []) (hv : Passes (.new backend catalog now images) ms log t v after)
    (hi : v.inquiries[k]? = some i) : ∃ mid noted, Run s mid noted v ∧ since = noted ++ after := by
  have hinner : Inner (.inquire filter ids) := ⟨nofun, fun word => by cases word <;> rfl⟩
  obtain ⟨w, late, asking, u, hw, hwj, -, hwtalk, ho⟩ := h.replied_at (Nat.zero_le n) hj htalk hinner
  -- The inquiry is begun when the job has been replied something.
  have hlater : ∃ mid noted, Run s mid noted w := by
    obtain ⟨mid, noted, hrun, -⟩ | ⟨mid, noted, hrun, -⟩ := hs.total hw
    · exact ⟨mid, noted, hrun⟩
    · obtain ⟨tail, hgrows⟩ := hrun.talk_grows hwj hold
      rw [hnone, hwtalk] at hgrows
      exact absurd (List.append_eq_nil_iff.mp hgrows.symm).1 htalk'
  obtain ⟨mid, noted, hrun, hsince⟩ | ⟨mid, noted, hrun, -⟩ := hs.total hv
  · exact ⟨mid, noted, hrun, hsince⟩
  · obtain ⟨between, noted', hbetween⟩ := hlater
    obtain ⟨i', hi', -⟩ := (hrun.trans hbetween).inquiry_kept hi
    cases ho
    exact absurd (List.getElem?_eq_some_iff.mp hi').1 (Nat.not_lt_of_le (List.mem_range'_1.mp hk).1)

/-- The inquiries for all sandboxes come to what the agents answer that the sandboxes had when the ids were looked up. -/
theorem Run.spread (h : Run (.new backend catalog now images) ms log t) (hj : t.jobs[n]? = some job)
    {ids : List String} {numbers : List Nat} {results : List (Except Failure (List Message.Container))}
    (htalk : job.talk = [⟨.pods .ids, ids⟩, ⟨.inquire filter ids, numbers⟩, ⟨.await numbers, results⟩]) :
    ∃ s since, Passes (.new backend catalog now images) ms log t s since ∧
      s.Looks n [] .ids s.pods.store.directory.keys ∧ job.inquiries.Nodup ∧
      Spread s since t filter s.pods.store.directory.keys job.inquiries (t.forwards job) results := by
  have hfirst : job.talk = [] ++ ⟨.pods .ids, ids⟩ :: [⟨.inquire filter ids, numbers⟩, ⟨.await numbers, results⟩] := htalk
  have hsecond : job.talk = [⟨.pods .ids, ids⟩] ++ ⟨.inquire filter ids, numbers⟩ :: [⟨.await numbers, results⟩] := htalk
  obtain ⟨s, since, hp, hl⟩ := (h.seen (Nat.zero_le n) hj).told hfirst (.inr (.inr rfl))
  obtain rfl : ids = s.pods.store.directory.keys := by
    obtain ⟨-, -, -, -, -, -, hglance⟩ := hl
    exact (Option.some.inj hglance).symm
  obtain rfl : job.inquiries = numbers := by
    rw [Job.inquiries, htalk]
    exact List.append_nil _
  have haccounted := h.accounted (Nat.zero_le n) hj
  obtain ⟨hnodup, hbegun⟩ := haccounted.begun (htalk ▸ List.mem_cons_of_mem _ List.mem_cons_self)
  have hover := haccounted.ended (htalk ▸ List.mem_cons_of_mem _ (List.mem_cons_of_mem _ List.mem_cons_self))
  have hforwards : t.forwards job =
      job.inquiries.flatMap fun k => (t.inquiries[k]?.map fun i => forwarded i.talk).getD [] := by
    rw [forwards, htalk]
    rfl
  refine ⟨s, since, hp, hl, hnodup, hforwards ▸ exists_spread hbegun hover ?_⟩
  intro k id i result hk hi hcourse hleft
  obtain ⟨v, later, hv, hseeks, hasked⟩ := h.inquiry_asked hi hcourse hleft
  obtain ⟨old, -, hold, hnone, -⟩ := hl
  obtain ⟨i', hi'⟩ := hseeks.begun
  obtain ⟨mid, noted, hrun, rfl⟩ := h.inquiry_after hj hsecond (List.cons_ne_nil _ _) hk hp hold hnone hv hi'
  refine ⟨⟨i, hi, hcourse, rfl, hleft⟩, v, mid, noted, later, hrun, rfl, hseeks, hasked, fun hfind hr hstays => ?_⟩
  obtain ⟨before, -, earlier, -, -, hbefore, -⟩ := hp
  exact hasked.eq_of_stays hbefore hrun hfind hr hstays

end

theorem containers_listed {ms : List (Move Answer)} {t : Shim Answer}
    (h : Run (.new backend catalog now images) ms log t) : Listed (.new backend catalog now images) ms log t where
  routed := by
    intro n job name filter answer hj hcourse hleft
    have hleads := (h.sound (Nat.zero_le n) hj).leads
    rw [hcourse, hleft] at hleads
    obtain ⟨id, hof⟩ | hall := listsOf_or_listsAll filter
    · obtain ⟨s, since, result, hp, hl, hasked, rfl⟩ :=
        Run.routed .rest h (Nat.zero_le n) hj hcourse (serve_of_listsOf hof) hleft
      rw [forwards_eq_forwarded (serve_of_listsOf hof) hleads]
      exact .inl ⟨id, s, since, hof, hp, hl, hasked.routes⟩
    · have hgathering := gathering_of_leads (listedSandbox_of_listsAll hall) hleads
      generalize htalk : job.talk = talk at hgathering
      cases hgathering with
      | lists ids numbers results =>
        obtain ⟨s, since, hp, hl, hnodup, hspread⟩ := h.spread hj htalk
        rw [flatMap_listed]
        refine .inr ⟨hall, s, since, results, hp, hl, s.pods.store.directory.nodup, hnodup, rfl, hspread, fun hstays => ?_⟩
        obtain ⟨before, -, earlier, -, -, hbefore, -⟩ := hp
        refine hspread.forwards_eq hbefore.pods.orderly.placed fun id hid => ?_
        obtain ⟨record, hi⟩ := Table.mem_keys_iff.mp hid
        exact ⟨record, hi, hstays id record hi⟩
  apart hj hj' hk hk' := h.inquiries_apart rfl hj hj' hk hk'
  answered := by
    intro n job name filter hj hcourse agent
    obtain ⟨id, hof⟩ | hall := listsOf_or_listsAll filter
    · obtain ⟨more, after, u, job', answer, hrun, hu, hkept, hleft, hforwarded⟩ := h.answers hj hcourse agent
      have hleads := ((h.trans hrun).sound (Nat.zero_le n) hu).leads
      rw [hkept, hcourse, hleft] at hleads
      refine ⟨more, after, u, job', answer, hrun, hu, hkept, hleft, ?_, fun hall => ?_⟩
      · rw [forwards_eq_forwarded (serve_of_listsOf hof) hleads]
        exact fun f hf => (hforwarded f hf).imp_left fun hf => List.mem_append_left _ hf
      · cases (listedSandbox_of_listsOf hof).symm.trans (listedSandbox_of_listsAll hall)
    · obtain ⟨more, after, u, job', containers, hrun, hu, hkept, hleft, hanswers⟩ :=
        h.gathers agent hj (listedSandbox_of_listsAll hall) hcourse
      exact ⟨more, after, u, job', _, hrun, hu, hkept, hleft, hanswers, fun _ => ⟨containers, rfl⟩⟩

/-! ### A list of several sandboxes -/

namespace Tour

def machine (id : String) : Machine.Handle :=
  ⟨id, id⟩

/-- An agent that lists containers of the given ids. -/
def lists (ids : List String) : (request : Agent.Request) → Except Failure request.Answer
  | .listContainers _ => .ok (ids.map fun id => { id := id })
  | _ => .error (.agent broken)

/-- An agent that fails. -/
def fails : (request : Agent.Request) → Except Failure request.Answer :=
  fun _ => .error (.agent broken)

/-- The containers of all sandboxes are listed while there are four. The first is removed before it is looked up, and the
    others are looked up before any agent answers. Then their agents answer, the last one first, and one fails. -/
def gather : List (Move Answer) :=
  make 0 0 vm 0 ++ make 1 1 (machine "a") 1 ++ make 2 2 (machine "b") 2 ++ make 3 3 (machine "c") 3 ++
    receive 4 (.containers (.listContainers none)) ++ look 4 4 ++ [.proceed 4] ++ drop 5 5 ++
    [.pursue 0, .pursue 1, .pursue 2, .pursue 3] ++
    ([9, 8, 7, 6].flatMap fun call => List.replicate 2 (.pods (.advance ⟨call, 0⟩))) ++
    [.pursue 0, .pursue 1, .pursue 2, .pursue 3] ++
    [.learn 3 (lists ["c:1"]), .learn 2 fails, .learn 1 (lists ["a:1", "a:2"])] ++ [.proceed 4]

end Tour

/-- All containers of the agents that do not fail are listed, in the order of the sandboxes. -/
theorem containers_listed_tour :
    ∃ log t job, Run Tour.first Tour.gather log t ∧ Listed Tour.first Tour.gather log t ∧ t.jobs[4]? = some job ∧
      (t.forwards job).map (·.connection) = [1, 2, 3] ∧
      job.left = Program.done (.response (.containers (.listContainers none))
        [{ id := "a:1" }, { id := "a:2" }, { id := "c:1" }]) :=
  ⟨_, _, _, run_played rfl, containers_listed (run_played rfl), rfl, rfl, rfl⟩

end Shim
end PodMachines
