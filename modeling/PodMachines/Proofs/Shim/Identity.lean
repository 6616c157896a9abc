import PodMachines.Proofs.Pods.Identity
import PodMachines.Proofs.Pods.Readiness
import PodMachines.Proofs.Shim.Selection

/-! What is told of a sandbox that a request has asked for. Main statement: when no machine is provisioned with the id of
    an earlier one, every status of the sandbox and every list that it is in tells what the caller has asked for and the
    same time and address, whatever else goes on. -/

namespace PodMachines
open Service Session

/-- What a sandbox keeps for its whole life: what it was asked for with, and what it was made with. -/
structure Identity where
  config : Message.PodConfig
  handler : String
  id : String
  createdAt : Int
  address : Address

namespace Identity

def status (x : Identity) (state : Int) : Message.PodStatus where
  id := x.id
  metadata := some (x.config.metadata.getD ⟨"", "", "", 0⟩)
  state := state
  createdAt := x.createdAt
  network := some { ip := x.address.toText }
  labels := x.config.labels
  annotations := x.config.annotations
  runtimeHandler := x.handler

def item (x : Identity) (state : Int) : Message.Pod where
  id := x.id
  metadata := some (x.config.metadata.getD ⟨"", "", "", 0⟩)
  state := state
  createdAt := x.createdAt
  labels := x.config.labels
  annotations := x.config.annotations
  runtimeHandler := x.handler

/-- Whether a sandbox was made for a request. The image that its machine boots may be named otherwise. -/
structure Of (x : Identity) (b : Pods.Origin) : Prop where
  spec : ∃ own, b.spec = translated own (.ofConfig x.config x.handler)
  id : b.id = x.id
  createdAt : (b.createdAt : Int) = x.createdAt
  address : b.address = x.address

section
variable {x : Identity} {b : Pods.Origin} {s : Sandbox.Status}

theorem Of.toMessage_eq (h : x.Of b) (hs : b.Shown s) : s.toMessage = x.status s.state.number := by
  obtain ⟨own, hspec⟩ := h.spec
  rw [Sandbox.Status.toMessage, hs.id, hs.spec, hs.createdAt, hs.address, h.id, h.createdAt, h.address, hspec]
  cases own <;> rfl

theorem Of.toItem_eq (h : x.Of b) (hs : b.Shown s) : s.toItem = x.item s.state.number := by
  obtain ⟨own, hspec⟩ := h.spec
  rw [Sandbox.Status.toItem, hs.id, hs.spec, hs.createdAt, h.id, h.createdAt, hspec]
  cases own <;> rfl

end

end Identity

/-! ### What the requests were told -/

section
variable {name id : String} {talk : Program.Talk Act Act.Reply}

theorem told_of_podStatus {verbose : Bool} {message : Message.PodStatus} {more : Message.Texts}
    (h : (requested name (.podStatus id verbose)).Leads talk (.done (.response (.podStatus id verbose) (message, more)))) :
    ∃ s, ⟨.pods (.status id), .ok s⟩ ∈ talk ∧ message = s.toMessage ∧ more = details name verbose s := by
  rw [requested_podStatus] at h
  obtain ⟨result, _, rfl, hresult⟩ := Program.leads_ask_done.mp h
  obtain ⟨rfl, hanswer⟩ := Program.leads_done.mp hresult
  cases result with
  | error f => cases hanswer
  | ok s =>
    cases hanswer
    exact ⟨s, List.mem_singleton_self _, rfl, rfl⟩

theorem told_of_listPods {filter : Option Message.PodFilter} {items : List Message.Pod}
    (h : (requested name (.listPods filter)).Leads talk (.done (.response (.listPods filter) items))) :
    ∃ f statuses, ⟨.pods (.list f), statuses⟩ ∈ talk ∧ items = statuses.map Sandbox.Status.toItem := by
  cases hf : Sandbox.Filter.ofMessage filter with
  | error status =>
    simp only [requested, serve, hf] at h
    obtain ⟨-, hanswer⟩ := Program.leads_done.mp h
    cases hanswer
  | ok f =>
    rw [requested_listPods hf] at h
    obtain ⟨statuses, _, rfl, hstatuses⟩ := Program.leads_ask_done.mp h
    obtain ⟨rfl, hanswer⟩ := Program.leads_done.mp hstatuses
    cases hanswer
    exact ⟨f, statuses, List.mem_singleton_self _, rfl⟩

end

namespace Shim

/-- What is told of a sandbox and its record in a run, whatever else goes on. -/
structure Preserved (first : Shim Answer) (ms : List (Move Answer)) (log : List Pods.Note) (t : Shim Answer) (i : Nat)
    (x : Identity) : Prop where
  /-- A status of the sandbox was reported by a check of its own, and is that of the sandbox in some state. -/
  status : ∀ {n : Nat} {job : Job Answer} {name : String} {verbose : Bool} {message : Message.PodStatus}
    {more : Message.Texts}, t.jobs[n]? = some job → job.course = requested name (.podStatus x.id verbose) →
      job.left = .done (.response (.podStatus x.id verbose) (message, more)) →
        message = x.status message.state ∧ ∃ e ∈ Pods.chronicle i log, Waited first ms log t n e.strand.call ∧
          ∃ s, e.deed.told? = some s ∧ message = s.toMessage
  /-- So is what a list has of it. -/
  listed : ∀ {n : Nat} {job : Job Answer} {name : String} {filter : Option Message.PodFilter} {items : List Message.Pod},
    t.jobs[n]? = some job → job.course = requested name (.listPods filter) →
      job.left = .done (.response (.listPods filter) items) → ∀ item ∈ items, item.id = x.id →
        item = x.item item.state ∧ ∃ e ∈ Pods.chronicle i log, Waited first ms log t n e.strand.call ∧
          ∃ s, e.deed.told? = some s ∧ item = s.toItem
  /-- Where no stop completes and no query is answered between two reports, status and list agree. -/
  agree : ∀ {pre mid post : List Pods.Note} {e e' : Pods.Note} {s s' : Sandbox.Status},
    Pods.chronicle i log = pre ++ e :: mid ++ e' :: post → e.deed.told? = some s → e'.deed.told? = some s' →
      (∀ n ∈ mid, n.deed.stops = false ∧ n.deed.found? = none) →
        Agrees s.toItem s'.toMessage ∧ Agrees s'.toItem s.toMessage
  /-- The sandbox is there under its id until it is removed. -/
  lasting : t.pods.store.directory.find? x.id = some i ↔ ¬Pods.Noted Pods.Deed.removes i log

section
variable {backend : String} {catalog : Option String} {now : Nat} {images : Option Images} {t : Shim Answer}
  {ms : List (Move Answer)} {log : List Pods.Note} {n i : Nat} {job : Job Answer} {b : Pods.Origin} {x : Identity}
  {s : Sandbox.Status}

theorem Run.made_of_runPod (h : Run (.new backend catalog now images) ms log t) (hj : t.jobs[n]? = some job)
    {name handler id : String} {config : Message.PodConfig}
    (hcourse : job.course = requested name (.runPod (some config) handler))
    (hleft : job.left = .done (.response (.runPod (some config) handler) id)) :
    ∃ i b, t.pods.store.origins i = some b ∧ Pods.Noted Pods.Deed.enrolls i log ∧
      Identity.Of ⟨config, handler, id, b.createdAt, b.address⟩ b := by
  have hleads := (h.sound (Nat.zero_le n) hj).leads
  rw [hcourse, hleft] at hleads
  obtain ⟨own, suffix, result, htold, hanswer⟩ := told_of_runPod hleads
  obtain ⟨k, hk⟩ := h.told_of_call (Nat.zero_le n) hj htold
  cases result with
  | error f => cases hanswer
  | ok made =>
  cases hanswer
  obtain ⟨i, b, hb, hid, hspec, henrolled⟩ := h.pods.made_of_result (Pods.System.result?_eq_some.mpr hk)
  exact ⟨i, b, hb, henrolled, ⟨own, hspec⟩, hid, rfl, rfl⟩

/-- What a call for a job has told of a sandbox was reported of its record. -/
theorem Run.report_of_tells (h : Run (.new backend catalog now images) ms log t) (hf : Pods.Fresh log)
    (hb : t.pods.store.origins i = some b) {k : Nat} (ht : t.pods.Tells k s) (hid : s.id = b.id) :
    b.Shown s ∧ ∃ e ∈ Pods.chronicle i log, e.strand.call = k ∧ e.deed.told? = some s := by
  obtain ⟨j, b', hb', hid', e, he, hcall, htold⟩ := h.pods.reported ht
  obtain rfl := h.pods.record_unique hf ⟨b', hb', hid'.trans hid⟩ ⟨b, hb, rfl⟩
  obtain ⟨b'', hb'', hshown⟩ := h.pods.shown he htold
  cases hb.symm.trans hb''
  exact ⟨hshown, e, he, hcall, htold⟩

theorem identity_preserved (h : Run (.new backend catalog now images) ms log t) (hf : Pods.Fresh log)
    (hj : t.jobs[n]? = some job) {name handler id : String} {config : Message.PodConfig}
    (hcourse : job.course = requested name (.runPod (some config) handler))
    (hleft : job.left = .done (.response (.runPod (some config) handler) id)) :
    ∃ i createdAt address,
      Preserved (.new backend catalog now images) ms log t i ⟨config, handler, id, createdAt, address⟩ := by
  obtain ⟨i, b, hb, henrolled, hof⟩ := h.made_of_runPod hj hcourse hleft
  have hid : b.id = id := hof.id
  refine ⟨i, b.createdAt, b.address, ?_, ?_, ?_, ?_⟩
  · intro n job name verbose message more hj hcourse hleft
    have hleads := (h.sound (Nat.zero_le n) hj).leads
    rw [hcourse, hleft] at hleads
    obtain ⟨s, htold, rfl, -⟩ := told_of_podStatus hleads
    obtain ⟨k, hwaited, hk⟩ := h.told_at (Nat.zero_le n) hj htold
    have hr := Pods.System.result?_eq_some.mpr hk
    obtain ⟨hshown, e, he, rfl, htold⟩ := h.report_of_tells hf hb (.inl ⟨_, hr⟩) ((h.pods.told_id hr).trans hid.symm)
    exact ⟨hof.toMessage_eq hshown, e, he, hwaited, s, htold, rfl⟩
  · intro n job name filter items hj hcourse hleft item hitem hitemid
    have hleads := (h.sound (Nat.zero_le n) hj).leads
    rw [hcourse, hleft] at hleads
    obtain ⟨f, statuses, htold, rfl⟩ := told_of_listPods hleads
    obtain ⟨s, hs, rfl⟩ := List.mem_map.mp hitem
    obtain ⟨k, hwaited, hk⟩ := h.told_at (Nat.zero_le n) hj htold
    have hr := Pods.System.result?_eq_some.mpr hk
    obtain ⟨hshown, e, he, rfl, htold⟩ := h.report_of_tells hf hb (.inr ⟨f, statuses, hr, hs⟩) (hitemid.trans hid.symm)
    exact ⟨hof.toItem_eq hshown, e, he, hwaited, s, htold, rfl⟩
  · intro pre mid post e e' s s' hsplit hs hs' hmid
    have shown {e : Pods.Note} {s : Sandbox.Status} (he : e ∈ Pods.chronicle i log) (hs : e.deed.told? = some s) :
        b.Shown s := by
      obtain ⟨b', hb', hshown⟩ := h.pods.shown he hs
      cases hb.symm.trans hb'
      exact hshown
    have hstate := h.pods.state_steady hsplit hs hs' hmid
    have hshown := shown (hsplit ▸ by simp) hs
    have hshown' := shown (hsplit ▸ by simp) hs'
    rw [hof.toItem_eq hshown, hof.toItem_eq hshown', hof.toMessage_eq hshown, hof.toMessage_eq hshown', hstate]
    exact ⟨⟨rfl, rfl, rfl, rfl, rfl, rfl, rfl⟩, rfl, rfl, rfl, rfl, rfl, rfl, rfl⟩
  · rw [← hid]
    exact h.pods.indexed hf i b hb henrolled

end

/-! ### A run in which a sandbox is stopped and another one is made -/

namespace Kept

def config : Message.PodConfig where
  metadata := some ⟨"web", "u1", "prod", 3⟩
  hostname := "web-0"
  labels := Table.empty.insert "app" "web"
  annotations := Table.empty.insert bootImageAnnotation "x"

def first : Shim Answer :=
  .new "fake" (some "aws") 7 (some (.prefixing "my/"))

/-- The sandbox is made for the first request, by the first call. -/
def make : List (Move Answer) :=
  Tour.receive 0 (.runPod (some config) "kata") ++ [.hear 0 (.suffix 0), .proceed 0, .pods (.advance ⟨0, 0⟩),
    .pods (.answer ⟨0, 0⟩ (.backend (.provision (.forPod "prod" "web" none 0))) (.ok Tour.vm)),
    .pods (.answer ⟨0, 0⟩ (.backend (.addresses Tour.vm)) (.ok [Pods.Tour.address])),
    .pods (.answer ⟨0, 0⟩ (.connect Pods.Tour.address) (.ok 0))] ++ Tour.look 0 0

/-- A request whose call goes to the sandbox, gets the lock, and is over at once. -/
def visit (n : Nat) (r : Request) : List (Move Answer) :=
  Tour.receive n r ++ List.replicate 4 (.pods (.advance ⟨n, 0⟩)) ++ [.proceed n]

/-- The sandbox is there, and then it is stopped while another one is made; a remove of it fails. -/
def moves : List (Move Answer) :=
  make ++ visit 1 (.podStatus "vm" false) ++ [.pods (.pass 20000)] ++ visit 2 (.stopPod "vm") ++
    Tour.make 3 3 ⟨"other", "other"⟩ 1 ++ Tour.keep 4 4 ++ visit 5 (.podStatus "vm" false) ++
      visit 6 (.listPods (some { id := "vm" }))

def log : List Pods.Note :=
  (first.played moves).1

def final : Shim Answer :=
  (first.played moves).2

theorem run : Run first moves log final :=
  run_played rfl

theorem fresh : Pods.Fresh log := by
  decide

theorem made : ∃ job, final.jobs[0]? = some job ∧ job.course = requested "fake" (.runPod (some config) "kata") ∧
    job.left = .done (.response (.runPod (some config) "kata") "vm") :=
  ⟨_, rfl, rfl, rfl⟩

def identity : Identity :=
  ⟨config, "kata", "vm", 7, Pods.Tour.address⟩

end Kept

/-- In the tour the sandbox is told of before and after it was stopped, another one was made and a remove of it failed. -/
theorem identity_preserved_tour :
    Pods.Fresh Kept.log ∧ (∃ i createdAt address,
      Preserved Kept.first Kept.moves Kept.log Kept.final i ⟨Kept.config, "kata", "vm", createdAt, address⟩) ∧
      ([0, 1, 5, 6].map fun n => Kept.final.jobs[n]?.map (·.left)) =
        [some (.done (.response (.runPod (some Kept.config) "kata") "vm")),
          some (.done (.response (.podStatus "vm" false) (Kept.identity.status 0, .empty))),
          some (.done (.response (.podStatus "vm" false) (Kept.identity.status 1, .empty))),
          some (.done (.response (.listPods (some { id := "vm" })) [Kept.identity.item 1]))] := by
  obtain ⟨job, hj, hcourse, hleft⟩ := Kept.made
  exact ⟨Kept.fresh, identity_preserved Kept.run Kept.fresh hj hcourse hleft, rfl⟩

end Shim
end PodMachines
