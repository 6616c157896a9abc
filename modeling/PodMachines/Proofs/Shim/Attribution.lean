import PodMachines.Proofs.Backend.Described
import PodMachines.Proofs.Shim.Returning

/-! Which machine a cloud's description is of, and which address a create uses. Main statement: what is answered of a
    machine is decided by the first instance of its id that is described; and a create connects to its machine at the
    preferred address of that, or ends the machine and fails where there is none. -/

namespace PodMachines
open Backend Program

namespace Pods

section
variable {backend : String} {o : Origins} {spec : Sandbox.Spec} {suffix : UInt32} {p : Point (.create spec suffix)}
  {es : List Entry}

/-- What a create connects to is the first address that it has heard of its machine. -/
theorem Creation.of_connect (h : Creation backend o spec suffix p es) {me : Strand} {s : Store} {address : Address}
    (hr : p.request? me s = some (.connect address)) : ∃ machine rest,
    (⟨.backend (.addresses machine), .ok (address :: rest)⟩ : Answered) ∈ es.filterMap fun e => e.2.heard? := by
  cases h with
  | connecting vm machine _ rest =>
    cases hr
    exact ⟨machine, rest, List.mem_cons_of_mem _ List.mem_cons_self⟩
  | _ => cases hr

/-- A sandbox has the first address that its create has heard of its machine. -/
theorem Creation.of_enrolled {id : String} (h : Creation backend o spec suffix (.finished (.ok id)) es) :
    ∃ i x machine rest, o i = some x ∧ x.id = id ∧
      (⟨.backend (.addresses machine), .ok (x.address :: rest)⟩ : Answered) ∈ es.filterMap fun e => e.2.heard? := by
  cases h with
  | enrolled vm rest hi => exact ⟨_, _, _, rest, hi, rfl, List.mem_cons_of_mem _ List.mem_cons_self⟩

end
end Pods

namespace Tooled
variable {b : Tooled} {k : Agent.Connector} {vm : Machine.Spec} {machine : Machine.Handle} {id : String}
  {reply : Except String Ended} {found : Option Address} {making rest talk : Talk Ask Ask.Reply}
  {address : Address} {left : Work (Except Failure String)} {result : Except Failure String}

/-- The commands of some calls that end the machine of an id. -/
def endings (b : Tooled) (id : String) (calls : List (Command × Except String Ended)) : List Command :=
  (calls.map Prod.fst).filter (· ∈ b.teardowns id)

theorem endings_append (b : Tooled) (id : String) (calls more : List (Command × Except String Ended)) :
    b.endings id (calls ++ more) = b.endings id calls ++ b.endings id more := by
  simp only [endings, List.map_append, List.filter_append]

theorem endings_of_ending {calls : List (Command × Except String Ended)}
    (h : calls.map Prod.fst = b.teardowns id) : b.endings id calls = b.teardowns id := by
  rw [endings, h]
  exact List.filter_eq_self.mpr fun _ hc => decide_eq_true hc

variable [Doc.Parsers]

/-- What makes a machine and asks for its address does not end it. -/
theorem Locates.endings_eq_nil (h : b.Locates id reply found)
    (hmade : (b.backend.serve (.provision vm)).Leads making (.done (.ok machine))) (r : Except String Ended) :
    b.endings id (toolCalls (making ++ [⟨.run (b.query id), r⟩])) = [] := by
  have hmaking := making_of_leads hmade
  rw [toolCalls_append, endings_append]
  generalize toolCalls making = calls at hmaking
  cases h with
  | ec2 h =>
    cases hmaking
    simp [endings, teardowns, query, Ec2.launch, Ec2.await, Ec2.query, Ec2.command]
  | gce h =>
    cases hmaking
    simp [endings, teardowns, query, Gce.create, Gce.query, Gce.onInstance]

/-- With a preferred address, the work for a sandbox comes to a connection there, or to an agent out of reach. -/
theorem Sighted.connected (h : b.Sighted k vm machine reply (some address) making rest (.done result)) :
    result = .ok machine.id ∨ ∃ place why, result = .error (.agentUnreachable place why) := by
  obtain ⟨dialing, more, dialed, rfl, -, h⟩ := leads_bind_done.mp (h.connects rfl)
  cases dialed with
  | ok agent =>
    obtain ⟨-, rfl⟩ := leads_done_done.mp h
    exact .inl rfl
  | error f =>
    obtain ⟨-, rfl⟩ := leads_discarding h
    cases f <;> exact .inr ⟨_, _, rfl⟩

/-- Without an address it fails because of the network, and has ended the machine. -/
theorem Sighted.discarded (h : b.Sighted k vm machine reply none making rest (.done result)) :
    (∃ why, result = .error (.network machine.id why)) ∧ (toolCalls rest).map Prod.fst = b.teardowns machine.id := by
  obtain ⟨why, hleads⟩ := h.discards rfl
  obtain ⟨hends, rfl⟩ := leads_discarding hleads
  exact ⟨⟨why, rfl⟩, hends⟩

end Tooled

namespace Rig

/-- What a create does whose machine a cloud's tool has described: `making` and `rest` are what was asked before and
    after that, and `left` what is left of its work. -/
structure Addressed [Doc.Parsers] {α : Type} (b : Tooled) (k : Agent.Connector) (t : Rig α) (n : Nat) (spec : Sandbox.Spec)
    (suffix : UInt32) (machine : Machine.Handle) (reply : Except String Ended) (found : Option Address)
    (making rest : Talk Ask Ask.Reply) (left : Work (Except Failure String)) : Prop where
  talk : talkFor n t.errands = making ++ ⟨.run (b.query machine.id), reply⟩ :: rest
  /-- The work goes on with the preferred address, or ends the machine if there is none. -/
  sighted : ∃ image, b.Sighted k (.forPod spec.nspace spec.name image suffix) machine reply found making rest left
  /-- No connection to another address is asked for. -/
  asks : ∀ {me : Pods.Strand} {address : Address}, me.call = n →
    t.shim.pods.request? me = some (.connect address) → found = some address
  /-- A sandbox that was made has that address. -/
  kept : ∀ {id : String}, t.shim.pods.result? n (.create spec suffix) = some (.ok id) →
    id = machine.id ∧ ∃ i x, t.shim.pods.store.origins i = some x ∧ x.id = id ∧ found = some x.address
  /-- A create has failed because of the network, and has ended its machine once, exactly if there is no address. -/
  ended : ∀ {result : Except Failure String}, t.shim.pods.result? n (.create spec suffix) = some result →
    ((∃ why, result = .error (.network machine.id why)) ∧
      b.endings machine.id (callsFor n t.errands) = b.teardowns machine.id ↔ found = none)
  /-- Whatever is replied, it can go on to that failure then. -/
  fails : found = none → ∀ {σ : Type} (answer : (q : Ask) → σ → q.Reply × σ) (x : σ), ∃ why,
    Returns t n spec suffix (left.talk answer x) (.error (.network machine.id why))

section
variable [Doc.Parsers]
variable {α : Type} {b : Tooled} {k : Agent.Connector} {now : Nat} {images : Option Images} {t : Rig α}
  {log : List Pods.Note} {n : Nat} {spec : Sandbox.Spec} {suffix : UInt32} {p : Pods.Point (.create spec suffix)}
  {id : String} {reply : Except String Ended} {found : Option Address}

/-- The first address that a create has heard of a machine is the preferred one. -/
theorem found_of_heard {es : List Pods.Entry} {vm : Machine.Spec} {machine other : Machine.Handle}
    {making rest : Talk Ask Ask.Reply} {left : Work (Except Failure String)} {address : Address}
    {addresses : List Address} (hfound : b.Locates machine.id reply found)
    (hs : b.Sighted k vm machine reply found making rest left)
    (htalk : talkFor n t.errands = making ++ ⟨.run (b.query machine.id), reply⟩ :: rest)
    (ha : Attended (.new b.backend k now images : Rig α) ⟨n, 0⟩ (mine ⟨n, 0⟩ t.errands)
      (es.filterMap fun e => e.2.heard?))
    (hheard : (⟨.backend (.addresses other), .ok (address :: addresses)⟩ : Pods.Answered) ∈
      es.filterMap fun e => e.2.heard?) : found = some address := by
  obtain ⟨answer, hprefers, hserve⟩ := hfound.serve_eq
  obtain ⟨e, he, talk, rfl, hleads⟩ := ha.came _ hheard
  have hleads : (b.backend.serve (.addresses other)).Leads talk (.done (.ok (address :: addresses))) := hleads
  rw [hserve, leads_query] at hleads
  obtain ⟨r, rfl, hanswer⟩ := hleads
  -- The create has asked for one description.
  have hmem : (b.query other.id, r) ∈ toolCalls (talkFor n t.errands) := by
    rw [toolCalls_talkFor]
    exact List.mem_flatMap.mpr ⟨_, List.mem_filter.mpr ⟨(List.mem_filter.mp he).1, decide_eq_true rfl⟩,
      List.mem_singleton_self _⟩
  have honce := List.forall_mem_append.mp hs.once
  rw [htalk, toolCalls_append, toolCalls_run, List.mem_append, List.mem_cons] at hmem
  obtain ⟨hquery, rfl⟩ := Prod.mk.inj
    ((hmem.resolve_left (Tooled.not_mem_toolCalls honce.1)).resolve_right (Tooled.not_mem_toolCalls honce.2))
  rw [← Tooled.query_inj hquery, ← hanswer] at hprefers
  exact hprefers.symm

/-- Whatever is replied, a create whose machine has no preferred address can go on to a failure of the network. -/
theorem Run.returns_network (h : Run (.new b.backend k now images) log t)
    (hp : t.shim.pods.calls[n]? = some ⟨.create spec suffix, p⟩) {left : Work (Except Failure String)}
    (hr : Remains b k t n p left) {machine : Machine.Handle} {rest : Talk Ask Ask.Reply} {f : Failure}
    (hl : (b.discarding machine f).Leads rest left) {σ : Type} (answer : (q : Ask) → σ → q.Reply × σ) (x : σ) :
    Returns t n spec suffix (left.talk answer x) (.error f) := by
  obtain ⟨result, hrun, hdone⟩ | ⟨why, -, hcrash⟩ := leads_talk answer left x
  · obtain ⟨-, rfl⟩ := Tooled.leads_discarding (hl.trans hdone)
    exact h.returns hp hr hrun
  · exact (not_leads_crash (b.discarding_sturdy machine f) (hl.trans hcrash)).elim

theorem Run.addressed (h : Run (.new b.backend k now images) log t)
    (hp : t.shim.pods.calls[n]? = some ⟨.create spec suffix, p⟩) (hreply : (b.query id, reply) ∈ callsFor n t.errands)
    (hfound : b.Locates id reply found) : ∃ machine making rest left, machine.id = id ∧
      Addressed b k t n spec suffix machine reply found making rest left := by
  obtain ⟨image, left, hleads, hremains⟩ := h.remains hp
  rw [← toolCalls_talkFor] at hreply
  obtain ⟨machine, making, rest, rfl, htalk, hs⟩ := hfound.sighted hleads hreply
  obtain ⟨es, hc, -, hattended⟩ := h.attended_create hp
  refine ⟨machine, making, rest, left, rfl, htalk, ⟨image, hs⟩, ?_, ?_, ?_, ?_⟩
  · rintro me address rfl hr
    rw [Pods.System.request?, hp] at hr
    obtain ⟨other, addresses, hheard⟩ := hc.of_connect hr
    exact found_of_heard hfound hs htalk hattended hheard
  · intro id hresult
    cases hp.symm.trans (Pods.System.result?_eq_some.mp hresult)
    obtain ⟨i, x, other, addresses, hx, hid, hheard⟩ := hc.of_enrolled
    obtain rfl := found_of_heard hfound hs htalk hattended hheard
    obtain rfl := hremains.ended
    obtain hok | ⟨place, why, herror⟩ := hs.connected
    · cases hok
      exact ⟨rfl, i, x, hx, hid, rfl⟩
    · cases herror
  · intro result hresult
    cases hp.symm.trans (Pods.System.result?_eq_some.mp hresult)
    obtain rfl := hremains.ended
    cases found with
    | some address =>
      refine iff_of_false ?_ (Option.some_ne_none address)
      rintro ⟨⟨why, rfl⟩, -⟩
      obtain hok | ⟨place, why, herror⟩ := hs.connected
      · cases hok
      · cases herror
    | none =>
      obtain ⟨hwhy, hends⟩ := hs.discarded
      refine iff_of_true ⟨hwhy, ?_⟩ rfl
      rw [← toolCalls_talkFor, htalk, List.append_cons, toolCalls_append, Tooled.endings_append,
        hfound.endings_eq_nil hs.made, List.nil_append, Tooled.endings_of_ending hends]
  · intro hnone σ answer x
    obtain ⟨why, hl⟩ := hs.discards hnone
    exact ⟨why, h.returns_network hp hremains hl answer x⟩

end

/-! ### A machine among others -/

namespace Among

def config : Config.Ec2 :=
  ⟨"ami-1", "eu", "sg-1", "vpc-1", "subnet-1", "key", "t3", ["self"]⟩

def cloud : Tooled :=
  .ec2 config

def first : Rig Session.Answer :=
  .new cloud.backend .meeting 0 none

def machine : Machine.Handle :=
  ⟨"i-1", (Tour.vm 1).name⟩

/-- Another machine is described first, in a reservation of its own; of the one that was made the private address cannot
    be read. -/
def described : Except String Ended :=
  Tour.prints <|
    "\x7b\"Reservations\":[\x7b\"Instances\":[\x7b\"InstanceId\":\"i-0\",\"State\":\x7b\"Name\":\"on\"\x7d\x7d]\x7d," ++
    "\x7b\"Instances\":[\x7b\"InstanceId\":\"i-1\",\"State\":\x7b\"Name\":\"on\"\x7d,\"PrivateIpAddress\":\"\"," ++
    "\"PublicIpAddress\":\"10.0.0.1\"\x7d]\x7d]\x7d"

def reservations : List (List Ec2.Instance) :=
  [[⟨"i-0", "on", none, none⟩], [⟨"i-1", "on", some "", some "10.0.0.1"⟩]]

theorem decoded : (Ec2.query config "i-1").decoded Ec2.reservations.decode described = .ok reservations :=
  eq_ok_of_toOption (by decide +kernel)

def moves : List (Move Session.Answer) :=
  Tour.create 0 0 0 1 [Tour.prints "\x7b\"Instances\":[\x7b\"InstanceId\":\"i-1\"\x7d]\x7d", Tour.prints ""] ++
    [.tell 0] ++
    Tour.done 1 (.strand ⟨0, 0⟩ (.backend (.addresses machine))) [described] ++
    Tour.done 2 (.strand ⟨0, 0⟩ (.connect Pods.Tour.address)) [Tour.prints ""] ++ Tour.go 0 2

/-- Whether a run has made a sandbox of the machine after the tool has described it. -/
def Made (t : Rig Session.Answer) : Prop :=
  t.shim.pods.result? 0 (.create Loss.spec 1) = some (.ok "i-1") ∧
    (cloud.query "i-1", described) ∈ callsFor 0 t.errands

instance (t : Rig Session.Answer) : Decidable (Made t) :=
  inferInstanceAs (Decidable (_ ∧ _))

theorem made : ∃ log t, Run first log t ∧ Made t := by
  have hgoes : ((first.follow moves).any fun x => Made x.2) = true := by
    decide +kernel
  obtain ⟨⟨log, t⟩, hfollow, hmade⟩ := (Option.any_eq_true _ _).mp hgoes
  exact ⟨log, t, run_of_follow hfollow, of_decide_eq_true hmade⟩

end Among

end Rig
end PodMachines
