import PodMachines.Proofs.Shim.FanOut
import PodMachines.Proofs.Shim.Rig

/-! On whose behalf work is done. Main statements: nothing is done for a call or a request that gives an id before the id
    has led it to a record in the directory; and a request that was told how a call has ended was told so of a call
    that has. -/

namespace PodMachines
open Service Session

/-! ### Requests that give an id -/

/-- Whether a request gives the id of a sandbox: itself, or with that of a container. -/
def Service.Request.Gives (id : String) : Request → Prop
  | .stopPod own | .removePod own | .podStatus own _ => own = id
  | .listPods filter => ∃ f, Sandbox.Filter.ofMessage filter = .ok f ∧ f.id = some id
  | .containers request => Concerns request id ∨ ∃ filter, request = .listContainers filter ∧ ListsOf filter id
  | _ => False

/-- Whether this only calls on the pods with an id, or forwards. -/
def Service.Act.Gives (id : String) (act : Act) : Prop :=
  (∃ c, act = .pods c ∧ c.id? = some id) ∨ ∃ connection request, act = .forward connection request

theorem requested_gives {backend id : String} {r : Request} (h : r.Gives id) :
    (requested backend r).Uses (Act.Gives id) := by
  have called {c : Pods.Call} (hc : c.id? = some id) : Act.Gives id (.pods c) := .inl ⟨c, rfl, hc⟩
  have forwarded {request : Agent.Request}
      (hs : serve backend (.containers request) = (forward id request).bind Course.answered) :
      (serve backend (.containers request)).Uses (Act.Gives id) := by
    rw [hs]
    exact (forward_uses id request (called rfl) fun connection => .inr ⟨connection, request, rfl⟩).bind answered_uses
  suffices (serve backend r).Uses (Act.Gives id) from this.bind fun _ => trivial
  cases r with
  | stopPod own =>
    cases h
    exact ⟨called rfl, answered_uses⟩
  | removePod own =>
    cases h
    exact ⟨called rfl, answered_uses⟩
  | podStatus own verbose =>
    cases h
    refine ⟨called rfl, fun result => ?_⟩
    cases result <;> trivial
  | listPods filter =>
    obtain ⟨f, hf, hid⟩ := h
    simp only [serve, hf]
    exact ⟨called hid, fun _ => trivial⟩
  | containers request =>
    obtain h | ⟨filter, rfl, h⟩ := h
    · exact forwarded (serve_of_concerns h)
    · exact forwarded (serve_of_listsOf h)
  | _ => exact h.elim

theorem leads_removePod {backend id : String} {talk : Program.Talk Act Act.Reply}
    (h : (requested backend (.removePod id)).Leads talk (.done (.response (.removePod id) ()))) :
    talk = [⟨.pods (.remove id), .ok ()⟩] := by
  obtain ⟨first, rest, served, rfl, hfirst, hrest⟩ := Program.leads_bind_done.mp h
  obtain ⟨result, more, rfl, hmore⟩ := Program.leads_ask_done.mp hfirst
  obtain ⟨rfl, hanswer⟩ := Program.leads_done.mp hrest
  cases result with
  | error f =>
    obtain ⟨-, hserved⟩ := Program.leads_done.mp hmore
    cases hserved
    cases hanswer
  | ok =>
    obtain ⟨rfl, -⟩ := Program.leads_done.mp hmore
    rfl

/-! ### What was told of calls -/

/-- Whether a job was told that a call has come to this. -/
def Job.WasTold {α : Type} (job : Job α) (c : Pods.Call) (result : c.Result) : Prop :=
  (⟨.pods c, result⟩ : (act : Act) × act.Reply) ∈ job.talk

namespace Shim
variable {α : Type} {first s t : Shim α} {ms : List (Move α)} {log : List Pods.Note} {m : Move α} {n k : Nat}
  {job : Job α}

theorem Goes.finished_kept (h : s.Goes m t) {k : Nat} {c : Pods.Call} {result : c.Result}
    (hp : s.pods.calls[k]? = some ⟨c, .finished result⟩) : t.pods.calls[k]? = some ⟨c, .finished result⟩ := by
  obtain hpods | ⟨pm, hpm, -⟩ := h.pods_eq
  · exact hpods ▸ hp
  · exact Pods.System.finished_of_move hpm hp

/-- Whether the call was made for the job: the job waits for it in some state that the run passes. -/
def Waited (first : Shim α) (ms : List (Move α)) (log : List Pods.Note) (t : Shim α) (n k : Nat) : Prop :=
  ∃ s since job, Passes first ms log t s since ∧ s.jobs[n]? = some job ∧ job.call = some k

theorem Waited.move (h : Waited first ms log s n k) (hm : s.move? m = some t) :
    Waited first (ms ++ [m]) (log ++ s.notes m) t n k := by
  obtain ⟨u, since, job, hpasses, hj, hk⟩ := h
  exact ⟨u, _, job, hpasses.move hm, hj, hk⟩

/-- What a job was told of a call is how a call has ended that was made for the job. -/
theorem Run.told_at (h : Run first ms log s) (hn : first.jobs.length ≤ n) (hj : s.jobs[n]? = some job) {c : Pods.Call}
    {result : c.Result} (ht : job.WasTold c result) :
    ∃ k : Nat, Waited first ms log s n k ∧ s.pods.calls[k]? = some ⟨c, .finished result⟩ := by
  induction h generalizing job with
  | rest => exact absurd (List.getElem?_eq_some_iff.mp hj).1 (Nat.not_lt_of_le hn)
  | @move ms log t u h m hm ih =>
    have hg := goes_of_move hm
    obtain ⟨course, -, -, rfl⟩ | ⟨old, hold, hturn⟩ := hg.turn hj
    · cases ht
    · have earlier (ht : old.WasTold c result) :
          ∃ k : Nat, Waited first (ms ++ [m]) (log ++ t.notes m) u n k ∧ u.pods.calls[k]? = some ⟨c, .finished result⟩ := by
        obtain ⟨k, hk, hp⟩ := ih hold ht
        exact ⟨k, hk.move hm, hg.finished_kept hp⟩
      have latest {act : Act} {reply : act.Reply} {next : act.Reply → Course α}
          (ht : (old.replied act reply next).WasTold c result) :
          old.WasTold c result ∨ (⟨.pods c, result⟩ : (act : Act) × act.Reply) = ⟨act, reply⟩ :=
        (List.mem_append.mp ht).imp (fun h => h) List.mem_singleton.mp
      cases hturn with
      | stay | call => exact earlier ht
      | @take old k c' next result' hl hc hr hpods =>
        obtain ht | heq := latest ht
        · exact earlier ht
        · cases heq
          exact ⟨k, ⟨t, _, old, h.passes.move hm, hold, hc⟩, hpods ▸ Pods.System.result?_eq_some.mp hr⟩
      | own hl ho hu =>
        obtain ht | heq := latest ht
        · exact earlier ht
        · cases heq
          cases ho
      | @hear old word act next reply hl hw hu =>
        obtain ht | heq := latest ht
        · exact earlier ht
        · cases heq
          cases word <;> cases hw

theorem Run.told_of_call (h : Run first ms log s) (hn : first.jobs.length ≤ n) (hj : s.jobs[n]? = some job) {c : Pods.Call}
    {result : c.Result} (ht : job.WasTold c result) : ∃ k : Nat, s.pods.calls[k]? = some ⟨c, .finished result⟩ := by
  obtain ⟨k, -, hk⟩ := h.told_at hn hj ht
  exact ⟨k, hk⟩

end Shim

/-! ### Whom work is done for -/

namespace Rig
variable {α : Type} {backend : Backend} {connector : Agent.Connector} {now : Nat} {images : Option Images} {t : Rig α}
  {log : List Pods.Note}

/-- Whether an order is for a job: for its call, or its own. -/
def Order.isFor (n : Nat) (job : Job α) : Order → Bool
  | .strand me _ => job.call = some me.call
  | .search k _ => k = n

/-- Nothing is done for a call that gives an id before the id has led it to a record. -/
theorem Run.led (h : Run (.new backend connector now images) log t) : ∀ e ∈ t.errands, ∀ me request,
    e.order = .strand me request → ∃ (c : Pods.Call) (p : Pods.Point c), t.shim.pods.calls[me.call]? = some ⟨c, p⟩ ∧
      ∀ id, c.id? = some id →
        ∃ i, Pods.Found (.new backend.name backend.catalog now) log t.shim.pods me.call c id i := by
  refine Run.induct (P := fun log (t : Rig α) => ∀ e ∈ t.errands, ∀ me request, e.order = .strand me request →
    ∃ (c : Pods.Call) (p : Pods.Point c), t.shim.pods.calls[me.call]? = some ⟨c, p⟩ ∧ ∀ id, c.id? = some id →
      ∃ i, Pods.Found (.new backend.name backend.catalog now) log t.shim.pods me.call c id i) ?_ ?_ h
  · exact fun e he => absurd he List.not_mem_nil
  · intro log notes t u hrun ih hg e he me request horder
    have later {c : Pods.Call} {p : Pods.Point c} (hp : t.shim.pods.calls[me.call]? = some ⟨c, p⟩)
        (hfound : ∀ id, c.id? = some id →
          ∃ i, Pods.Found (.new backend.name backend.catalog now) log t.shim.pods me.call c id i) :
        ∃ (c : Pods.Call) (p : Pods.Point c), u.shim.pods.calls[me.call]? = some ⟨c, p⟩ ∧ ∀ id, c.id? = some id →
          ∃ i, Pods.Found (.new backend.name backend.catalog now) (log ++ notes) u.shim.pods me.call c id i := by
      obtain ⟨p', hp'⟩ := hg.call_kept hp
      refine ⟨c, p', hp', fun id hid => ?_⟩
      obtain ⟨i, hi⟩ := hfound id hid
      exact ⟨i, hi.trans hg.pods⟩
    obtain ⟨e₀, he₀, heq⟩ | ⟨hdue, -⟩ := hg.ordered he
    · obtain ⟨c, p, hp, hfound⟩ := ih e₀ he₀ me request (heq.trans horder)
      exact later hp hfound
    · rw [horder] at hdue
      obtain ⟨c, p, hp, hfound⟩ := hrun.pods.found_of_asks (asks_of_due hdue)
      exact later hp hfound

theorem Run.searched (h : Run (.new backend connector now images) log t) : ∀ e ∈ t.errands, ∀ n reference,
    e.order = .search n reference → ∃ job, t.shim.jobs[n]? = some job ∧
      ∀ allowed, job.course.Uses allowed → allowed (.find reference) := by
  refine Run.induct (P := fun _ (t : Rig α) => ∀ e ∈ t.errands, ∀ n reference, e.order = .search n reference →
    ∃ job, t.shim.jobs[n]? = some job ∧ ∀ allowed, job.course.Uses allowed → allowed (.find reference)) ?_ ?_ h
  · exact fun e he => absurd he List.not_mem_nil
  · intro log notes t u hrun ih hg e he n reference horder
    have later {job : Job α} (hj : t.shim.jobs[n]? = some job)
        (ha : ∀ allowed, job.course.Uses allowed → allowed (.find reference)) :
        ∃ job, u.shim.jobs[n]? = some job ∧ ∀ allowed, job.course.Uses allowed → allowed (.find reference) := by
      obtain ⟨ms, hms⟩ := hg.served
      obtain ⟨job', hj', hcourse⟩ := hms.kept hj
      exact ⟨job', hj', hcourse ▸ ha⟩
    obtain ⟨e₀, he₀, heq⟩ | ⟨hdue, -⟩ := hg.ordered he
    · obtain ⟨job, hj, ha⟩ := ih e₀ he₀ n reference (heq.trans horder)
      exact later hj ha
    · rw [horder] at hdue
      obtain ⟨ms, hms⟩ := hrun.shim
      simp only [due] at hdue
      split at hdue
      · rename_i job hj
        split at hdue
        · rename_i r next hl
          obtain rfl : r = reference := of_decide_eq_true hdue
          refine later hj fun allowed huses => ?_
          have hleft := (hms.sound (Nat.zero_le n) hj).leads.uses huses
          rw [hl] at hleft
          exact hleft.1
        · cases hdue
      · cases hdue

/-- Nothing is done for a request that gives an id before the id has led its call to a record. -/
theorem Run.unknown {t : Rig Answer} (h : Run (.new backend connector now images) log t) {n : Nat} {job : Job Answer}
    (hj : t.shim.jobs[n]? = some job) {name : String} {r : Request} (hc : job.course = requested name r) {id : String}
    (hr : r.Gives id) {e : Errand} (he : e ∈ t.errands) (hfor : e.order.isFor n job = true) :
    ∃ me request c i, e.order = .strand me request ∧
      Pods.Found (.new backend.name backend.catalog now) log t.shim.pods me.call c id i := by
  have huses : job.course.Uses (Act.Gives id) := hc ▸ requested_gives hr
  cases horder : e.order with
  | search k reference =>
    rw [horder] at hfor
    obtain rfl : k = n := of_decide_eq_true hfor
    obtain ⟨job', hj', hfind⟩ := h.searched e he k reference horder
    obtain rfl := Option.some.inj (hj'.symm.trans hj)
    obtain ⟨c, hact, -⟩ | ⟨connection, request, hact⟩ := hfind _ huses <;> cases hact
  | strand me request =>
    rw [horder] at hfor
    obtain ⟨ms, hms⟩ := h.shim
    have hsound := hms.sound (Nat.zero_le n) hj
    obtain ⟨c, next, p, hl, hp⟩ := hsound.waits (of_decide_eq_true hfor)
    have hleft := hsound.leads.uses huses
    rw [hl] at hleft
    obtain ⟨c', hact, hid⟩ | ⟨connection, other, hact⟩ := hleft.1
    · cases hact
      obtain ⟨c', p', hp', hfound⟩ := h.led e he me request horder
      cases hp'.symm.trans hp
      obtain ⟨i, hi⟩ := hfound id hid
      exact ⟨me, request, c, i, rfl, hi⟩
    · cases hact

/-- A request to remove that was answered as done has had a call that removed. -/
theorem Run.removed_of_answered {t : Rig Answer} (h : Run (.new backend connector now images) log t) {n : Nat}
    {job : Job Answer} (hj : t.shim.jobs[n]? = some job) {name id : String}
    (hc : job.course = requested name (.removePod id))
    (hl : job.left = Program.done (.response (.removePod id) ())) :
    ∃ k : Nat, t.shim.pods.calls[k]? = some ⟨.remove id, .finished (.ok ())⟩ := by
  obtain ⟨ms, hms⟩ := h.shim
  refine hms.told_of_call (Nat.zero_le n) hj ?_
  have hleads := (hms.sound (Nat.zero_le n) hj).leads
  rw [hc, hl] at hleads
  rw [Job.WasTold, leads_removePod hleads]
  exact List.mem_singleton_self _

end Rig
end PodMachines
