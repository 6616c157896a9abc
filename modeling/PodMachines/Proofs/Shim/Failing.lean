import PodMachines.Proofs.Pods.Failing
import PodMachines.Proofs.Shim.Handling

/-! How a request for a sandbox is refused. Main statement: whatever a backend and a connector answer, what fails first
    decides how a create fails and what it still asks for, and the request is refused with the status of that failure. -/

namespace PodMachines
open Service Session

namespace Shim

section
variable {α : Type} {s t : Shim α} {ms : List (Move α)} {log : List Pods.Note} {n k : Nat} {old job : Job α}

/-- A job that waits for a call goes on waiting until it is told how the call has ended. -/
theorem Run.told_of_waiting (h : Run s ms log t) {c : Pods.Call} {next : c.Result → Course α}
    (hj : s.jobs[n]? = some old) (hk : old.call = some k) (hl : old.left = Program.ask (.pods c) next) :
    ∃ job, t.jobs[n]? = some job ∧
      ((job.call = some k ∧ job.left = Program.ask (.pods c) next) ∨
        ∃ result, job.WasTold c result ∧ t.pods.calls[k]? = some ⟨c, .finished result⟩) := by
  refine Run.induct (P := fun _ _ t => ∃ job, t.jobs[n]? = some job ∧
    ((job.call = some k ∧ job.left = Program.ask (.pods c) next) ∨
      ∃ result, job.WasTold c result ∧ t.pods.calls[k]? = some ⟨c, .finished result⟩)) ⟨old, hj, .inl ⟨hk, hl⟩⟩ ?_ h
  rintro ms log t m u hrun ⟨job, hj, hjob⟩ hg
  obtain ⟨job', hj', hturn⟩ := hg.kept hj
  refine ⟨job', hj', ?_⟩
  obtain ⟨hk, hl⟩ | ⟨result, htold, hp⟩ := hjob
  · cases hturn with
    | stay hm hw => exact .inl ⟨hk, hl⟩
    | call hl' hc ht => cases hk.symm.trans hc
    | @take job k' c' next' result hl' hc hr ht =>
      cases hk.symm.trans hc
      cases hl.symm.trans hl'
      refine .inr ⟨result, List.mem_append_right _ (List.mem_singleton_self _), ?_⟩
      rw [ht]
      exact Pods.System.result?_eq_some.mp hr
    | own hl' ho ht =>
      cases hl.symm.trans hl'
      cases ho
    | @hear job word act next' reply hl' hw ht =>
      cases hl.symm.trans hl'
      cases word <;> cases hw
  · refine .inr ⟨result, ?_, hg.finished_kept hp⟩
    cases hturn with
    | stay | call => exact htold
    | take | own | hear => exact List.mem_append_left _ htold

end

section
variable {backend : String} {catalog : Option String} {now : Nat} {images : Option Images} {t : Shim Answer}
  {ms : List (Move Answer)} {log : List Pods.Note} {n k : Nat} {job : Job Answer} {name handler : String}
  {config : Message.PodConfig} {spec : Sandbox.Spec} {suffix : UInt32}

/-- What is left of a request for a sandbox from its call on. -/
theorem left_of_runPod (spec : Sandbox.Spec) (suffix : UInt32) {talk : Program.Talk Act Act.Reply} {left : Course Answer}
    (h : (requested name (.runPod (some config) handler)).Leads talk left) :
    (∀ (next : Except Failure String → Course Answer), left = Program.ask (.pods (.create spec suffix)) next →
      ∀ result, next result = .done (answering (.runPod (some config) handler) (fun id => id) result)) ∧
    ∀ result : Except Failure String, (⟨.pods (.create spec suffix), result⟩ : (act : Act) × act.Reply) ∈ talk →
      left = .done (answering (.runPod (some config) handler) (fun id => id) result) := by
  rw [requested_runPod] at h
  rcases h with _ | ⟨own, h⟩
  · exact ⟨nofun, nofun⟩
  rcases h with _ | ⟨number, h⟩
  · exact ⟨nofun, by simp⟩
  rcases h with _ | ⟨result, h⟩
  · refine ⟨fun next heq result => ?_, by simp⟩
    cases heq
    rfl
  · obtain ⟨rfl, rfl⟩ := Program.leads_done.mp h
    refine ⟨nofun, fun result' hmem => ?_⟩
    obtain heq | hmem := List.mem_cons.mp hmem
    · cases heq
    obtain heq | hmem := List.mem_cons.mp hmem
    · cases heq
    cases List.mem_singleton.mp hmem
    rfl

/-- A request is refused with a status, or is once it goes on. -/
def Refuses (t : Shim Answer) (n : Nat) (status : Status) : Prop :=
  ∃ job, t.jobs[n]? = some job ∧ (job.left = .done (.refused status) ∨
    ∃ u job', t.move? (.proceed n) = some u ∧ u.jobs[n]? = some job' ∧ job'.left = .done (.refused status))

/-- A request for a sandbox is refused with the status of the failure of its create. -/
theorem Run.refuses (h : Run (.new backend catalog now images) ms log t) (hj : t.jobs[n]? = some job)
    (hcourse : job.course = requested name (.runPod (some config) handler))
    (hwaited : Waited (.new backend catalog now images) ms log t n k) {why : Failure}
    (hr : t.pods.result? k (.create spec suffix) = some (.error why)) : Refuses t n why.status := by
  have hp := Pods.System.result?_eq_some.mp hr
  obtain ⟨s, since, old, ⟨before, rest, earlier, rfl, -, hbefore, hrest⟩, hold, hcall⟩ := hwaited
  obtain ⟨c, next, p, hl, hpc⟩ := (hbefore.sound (Nat.zero_le n) hold).waits hcall
  obtain ⟨p', hp'⟩ := hrest.call_kept hpc
  cases hp.symm.trans hp'
  obtain ⟨job', hj', hjob⟩ := hrest.told_of_waiting hold hcall hl
  cases hj.symm.trans hj'
  have hleads := (h.sound (Nat.zero_le n) hj).leads
  rw [hcourse] at hleads
  obtain ⟨hnext, htold⟩ := left_of_runPod spec suffix hleads
  refine ⟨job, hj, ?_⟩
  obtain ⟨hk, hleft⟩ | ⟨result, hmem, hresult⟩ := hjob
  · have hmove : t.move? (.proceed n) = some (t.told n job (.pods (.create spec suffix)) (.error why) next) := by
      simp only [move?, hj, Option.bind_some, proceed?, hleft, hk, hr, Option.map_some]
    have hjobs : (t.told n job (.pods (.create spec suffix)) (.error why) next).jobs[n]? =
        some (job.replied (.pods (.create spec suffix)) (.error why) next) :=
      List.getElem?_set_self (List.getElem?_eq_some_iff.mp hj).1
    exact .inr ⟨_, _, hmove, hjobs, hnext next hleft (.error why)⟩
  · cases hp.symm.trans hresult
    exact .inl (htold _ hmem)

/-- How a create fails, and the request that it is made for. -/
structure Failures (first : Shim Answer) (ms : List (Move Answer)) (log : List Pods.Note) (t : Shim Answer) (k : Nat)
    (spec : Sandbox.Spec) (suffix : UInt32) : Prop where
  fails : Pods.Fails first.pods.backend log t.pods k spec suffix
  /-- The request has the status of the failure. -/
  refused : ∀ {n : Nat} {job : Job Answer} {name handler : String} {config : Message.PodConfig} {why : Failure},
    t.jobs[n]? = some job → job.course = requested name (.runPod (some config) handler) → Waited first ms log t n k →
    t.pods.result? k (.create spec suffix) = some (.error why) → Refuses t n why.status

/-- Whatever a backend and a connector answer, a create fails as what failed first, has asked for no more than ending its
    machine, if it has got one, and fails so whatever becomes of the machine; its request is refused accordingly. -/
theorem failures_classified (h : Run (.new backend catalog now images) ms log t)
    {p : Pods.Point (.create spec suffix)} (hp : t.pods.calls[k]? = some ⟨.create spec suffix, p⟩) :
    Failures (.new backend catalog now images) ms log t k spec suffix where
  fails := h.pods.create_fails hp
  refused hj hcourse hwaited hr := h.refuses hj hcourse hwaited hr

end

/-! ### A run in which nothing works -/

namespace Failing

/-- A sandbox is asked for. Its agent does not answer, and its machine does not end. -/
def moves : List (Move Answer) :=
  Tour.receive 0 (.runPod (some {}) "") ++ [.hear 0 (.suffix 0), .proceed 0, .pods (.advance ⟨0, 0⟩),
    .pods (.answer ⟨0, 0⟩ (.backend (.provision (.forPod "" "" none 0))) (.ok Tour.vm)),
    .pods (.answer ⟨0, 0⟩ (.backend (.addresses Tour.vm)) (.ok [Pods.Tour.address])),
    .pods (.answer ⟨0, 0⟩ (.connect Pods.Tour.address) (.error Pods.Tour.down)),
    .pods (.answer ⟨0, 0⟩ (.backend (.destroy Tour.vm)) (.error Pods.Tour.down))]

def log : List Pods.Note :=
  (Tour.first.played moves).1

def final : Shim Answer :=
  (Tour.first.played moves).2

theorem run : Run Tour.first moves log final :=
  run_played rfl

end Failing

/-- The create has asked once for the end of its machine, and fails for its agent though the machine did not end; so is
    the request refused. -/
theorem failures_classified_refused : ∃ vm why,
    Pods.asked 0 Failing.log = [.backend (.provision vm), .backend (.addresses Tour.vm), .connect Pods.Tour.address,
      .backend (.destroy Tour.vm)] ∧
    Pods.Tour.down.ToldAs .agentUnreachable "10.0.0.1" why ∧ why.status = ⟨.unavailable, why.message⟩ ∧
    Refuses Failing.final 0 ⟨.unavailable, "Agent unreachable at 10.0.0.1: Backend error: backend - down"⟩ := by
  obtain ⟨p, hp⟩ : ∃ p, Failing.final.pods.calls[0]? = some ⟨.create (translated none (.ofConfig {} "")) 0, p⟩ := ⟨_, rfl⟩
  obtain ⟨job, hj⟩ : ∃ job, Failing.final.jobs[0]? = some job := ⟨_, rfl⟩
  have hcourse : job.course = requested "fake" (.runPod (some {}) "") := by
    cases hj
    rfl
  have hcall : job.call = some 0 := by
    cases hj
    rfl
  have hresult : Failing.final.pods.result? 0 (.create (translated none (.ofConfig {} "")) 0) =
      some (.error (Pods.Tour.down.asUnreachable "10.0.0.1")) := rfl
  have hheard : Pods.WasAnswered Failing.log 0 (.connect Pods.Tour.address) (.error Pods.Tour.down) :=
    ⟨_, List.mem_of_getElem? (i := 5) rfl, rfl, rfl⟩
  have hall : Pods.asked 0 Failing.log = [.backend (.provision (.forPod "" "" none 0)), .backend (.addresses Tour.vm),
    .connect Pods.Tour.address, .backend (.destroy Tour.vm)] := rfl
  have hfailures := failures_classified Failing.run hp
  have hrefuses := hfailures.refused hj hcourse ⟨_, _, job, Failing.run.passes, hj, hcall⟩ hresult
  obtain ⟨vm, machine, why, htold, hstatus, hm, hasked, -⟩ := hfailures.fails.unconnected _ _ hheard
  cases hall.symm.trans hasked
  exact ⟨_, why, hasked, htold, hstatus, hrefuses⟩

end Shim
end PodMachines
