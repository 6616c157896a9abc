import PodMachines.Proofs.Pods.Alone
import PodMachines.Proofs.Shim.Job

/-! A request that is served alone while no time passes. Main statement: it is served as its course goes on call after
    call, each of which goes on alone in the store and the outside that the one before has left. -/

namespace PodMachines
open Service Session
open Relation (ReflTransGen)

/-! ### The pods with one more call -/

namespace Pods.System
variable {s : System} {st u : Store} {c : Call} {p q : Point c} {me : Strand}

/-- With one more call, which stands at a point, and the store as it is then. -/
def standing (s : System) (st : Store) {c : Call} (p : Point c) : System :=
  { s with store := st, calls := s.calls ++ [⟨c, p⟩] }

theorem standing_getElem? : (s.standing st p).calls[s.calls.length]? = some ⟨c, p⟩ :=
  List.getElem?_concat_length

theorem standing_place : (s.standing st p).place s.calls.length (q, u) = s.standing u q := by
  simp [standing, place, List.set_append_right]

theorem advance_standing (hme : me.call = s.calls.length) :
    (s.standing st p).advance me = (p.advance me st).map fun (q, u) => s.standing u q := by
  simp only [advance, hme, standing_getElem?]
  exact congrArg (fun f => Option.map f _) (funext fun _ => standing_place)

theorem request?_standing (hme : me.call = s.calls.length) : (s.standing st p).request? me = p.request? me st := by
  simp only [request?, hme, standing_getElem?, Option.bind_some]
  rfl

theorem answer_standing (hme : me.call = s.calls.length) {request : Request} (a : request.Answer) :
    (s.standing st p).answer me request a =
      if p.request? me st = some request then
        (p.answer s.backend me st request a).map fun (q, u) => s.standing u q
      else none := by
  have hplace : (fun x : Point c × Store => (s.standing st p).place s.calls.length x) = fun (q, u) => s.standing u q :=
    funext fun _ => standing_place
  simp only [answer, request?_standing hme]
  simp only [hme, standing_getElem?, hplace]
  rfl

theorem result?_standing {result : c.Result} :
    (s.standing st p).result? s.calls.length c = some result ↔ p = .finished result := by
  rw [result?_eq_some, standing_getElem?]
  simp

end Pods.System

/-! ### Courses -/

/-- What is asked on the way of a request that is served by the pods and by agents. -/
def Service.Act.Plain (act : Act) : Prop :=
  (∃ c, act = .pods c) ∨ ∃ connection request, act = .forward connection request

/-- A course that goes on alone comes to a value, and store and outside come to be so. Its next call has the given
    number. -/
def Service.Course.Comes {α V G : Type} (manners : Pods.Manners V G) (backend : String) (a : α) (t : Pods.Store)
    (o' : Pods.Outer V G) : Course α → Nat → Pods.Store → Pods.Outer V G → Prop
  | Program.ask (.pods c) next, call, s, o =>
    ∃ result u p, Pods.Ends manners backend call ⟨.initial c, s, o⟩ result u p ∧
      Comes manners backend a t o' (next result) (call + 1) u p
  | Program.ask (.forward connection request) next, call, s, o =>
    Comes manners backend a t o' (next (manners.serve request (o.agent connection)).1) call s
      (o.setAgent connection (manners.serve request (o.agent connection)).2)
  | Program.done b, _, s, o => a = b ∧ t = s ∧ o' = o
  | _, _, _, _ => False

namespace Shim
variable {α V G : Type} {manners : Pods.Manners V G} {s t : Shim α} {n : Nat} {job : Job α} {o o' : Pods.Outer V G}

/-- One step of a job that goes on alone, with its inquiries: it starts a call or takes its result, an agent answers it,
    one of its inquiries does so, or a strand of a call of theirs advances or is answered. -/
inductive Stride (manners : Pods.Manners V G) (n : Nat) : Shim α × Pods.Outer V G → Shim α × Pods.Outer V G → Prop
  | proceed {s t : Shim α} {o : Pods.Outer V G} (h : s.move? (.proceed n) = some t) : Stride manners n (s, o) (t, o)
  | hear {s t : Shim α} {o : Pods.Outer V G} {job : Job α} {connection : Connection} {request : Agent.Request}
      {next : Except Failure request.Answer → Course α} (hj : s.jobs[n]? = some job)
      (hl : job.left = Program.ask (.forward connection request) next)
      (h : s.move? (.hear n (.agent fun request => (manners.serve request (o.agent connection)).1)) = some t) :
      Stride manners n (s, o) (t, o.setAgent connection (manners.serve request (o.agent connection)).2)
  | pursue {s t : Shim α} {o : Pods.Outer V G} {job : Job α} {k : Nat} (hj : s.jobs[n]? = some job)
      (hk : k ∈ job.inquiries) (h : s.move? (.pursue k) = some t) : Stride manners n (s, o) (t, o)
  | learn {s t : Shim α} {o : Pods.Outer V G} {job : Job α} {k : Nat} {inquiry : Inquiry} {connection : Connection}
      {request : Agent.Request} {next : Except Failure request.Answer → Course (Except Failure (List Message.Container))}
      (hj : s.jobs[n]? = some job) (hk : k ∈ job.inquiries) (hi : s.inquiries[k]? = some inquiry)
      (hl : inquiry.left = Program.ask (.forward connection request) next)
      (h : s.move? (.learn k fun request => (manners.serve request (o.agent connection)).1) = some t) :
      Stride manners n (s, o) (t, o.setAgent connection (manners.serve request (o.agent connection)).2)
  | advance {s t : Shim α} {o : Pods.Outer V G} {job : Job α} {me : Pods.Strand} (hj : s.jobs[n]? = some job)
      (hc : s.isFor job me.call = true) (h : s.move? (.pods (.advance me)) = some t) : Stride manners n (s, o) (t, o)
  | answer {s t : Shim α} {o o' : Pods.Outer V G} {job : Job α} {me : Pods.Strand} {request : Pods.Request}
      {a : request.Answer} (hj : s.jobs[n]? = some job) (hc : s.isFor job me.call = true)
      (ha : manners.answer o request = some (a, o')) (h : s.move? (.pods (.answer me request a)) = some t) :
      Stride manners n (s, o) (t, o')

/-- A job that goes on alone comes to a value. -/
def Finishes (manners : Pods.Manners V G) (n : Nat) (x : Shim α × Pods.Outer V G) (a : α) (t : Shim α)
    (o : Pods.Outer V G) : Prop :=
  ReflTransGen (Stride manners n) x (t, o) ∧ ∃ job, t.jobs[n]? = some job ∧ job.left = Program.done a

/-- A job is received and comes to a value alone. -/
def Executes (manners : Pods.Manners V G) (s : Shim α) (o : Pods.Outer V G) (course : Course α) (a : α) (t : Shim α)
    (o' : Pods.Outer V G) : Prop :=
  Finishes manners s.jobs.length ({ s with jobs := s.jobs ++ [.fresh course] }, o) a t o'

/-- What no call on the pods and no request to an agent changes. -/
def setting (s : Shim α) : String × Option String × Option Images :=
  (s.pods.backend, s.pods.catalog, s.images)

/-! ### Executions are runs -/

theorem Stride.run {x y : Shim α × Pods.Outer V G} (h : Stride manners n x y) : ∃ m log, Run x.1 [m] log y.1 := by
  cases h with
  | proceed h | hear hj hl h | pursue hj hk h | learn hj hk hi hl h | advance hj hc h | answer hj hc ha h =>
    exact ⟨_, _, Run.rest.move _ h⟩

theorem Finishes.run {a : α} {x : Shim α × Pods.Outer V G} (h : Finishes manners n x a t o') :
    ∃ ms log, Run x.1 ms log t := by
  have hall {y : Shim α × Pods.Outer V G} (h : ReflTransGen (Stride manners n) x y) : ∃ ms log, Run x.1 ms log y.1 := by
    induction h with
    | refl => exact ⟨_, _, .rest⟩
    | tail _ hs ih =>
      obtain ⟨ms, log, ih⟩ := ih
      obtain ⟨m, noted, hs⟩ := hs.run
      exact ⟨_, _, ih.trans hs⟩
  exact hall h.1

theorem Executes.run {course : Course α} {a : α} (h : Executes manners s o course a t o') :
    ∃ ms log, Run s ms log t := by
  obtain ⟨ms, log, hrun⟩ := Finishes.run h
  exact ⟨_, _, (Run.rest.move (.receive course) rfl).trans hrun⟩

/-! ### A job with a call -/

section
variable {c : Pods.Call} {next : c.Result → Course α} {closed : List Connection} {x x' : Pods.Scene c V G}
  {y : Shim α × Pods.Outer V G}

/-- With the call that a job asks for under way. -/
def waiting (s : Shim α) (n : Nat) (job : Job α) (closed : List Connection) (x : Pods.Scene c V G) : Shim α where
  pods := s.pods.standing x.store x.point
  images := s.images
  closed := closed
  jobs := s.jobs.set n { job with call := some s.pods.calls.length }
  inquiries := s.inquiries

/-- With the call over, and its result taken. -/
def taking (s : Shim α) (n : Nat) (job : Job α) (closed : List Connection) (st : Pods.Store) (result : c.Result)
    (next : c.Result → Course α) : Shim α where
  pods := s.pods.standing st (.finished result)
  images := s.images
  closed := closed
  jobs := s.jobs.set n (job.replied (.pods c) result next)
  inquiries := s.inquiries

theorem waiting_getElem? (hj : s.jobs[n]? = some job) :
    (s.waiting n job closed x).jobs[n]? = some { job with call := some s.pods.calls.length } :=
  List.getElem?_set_self (List.getElem?_eq_some_iff.mp hj).1

theorem taking_getElem? (hj : s.jobs[n]? = some job) {st : Pods.Store} {result : c.Result} :
    (s.taking n job closed st result next).jobs[n]? = some (job.replied (.pods c) result next) :=
  List.getElem?_set_self (List.getElem?_eq_some_iff.mp hj).1

theorem told_getElem? (hj : s.jobs[n]? = some job) {act : Act} {reply : act.Reply} {next : act.Reply → Course α} :
    (s.told n job act reply next).jobs[n]? = some (job.replied act reply next) :=
  List.getElem?_set_self (List.getElem?_eq_some_iff.mp hj).1

theorem proceed_waiting (hj : s.jobs[n]? = some job) (hl : job.left = Program.ask (.pods c) next) :
    (s.waiting n job closed x).move? (.proceed n) = some t ↔
      ∃ result, x.point = .finished result ∧ t = s.taking n job closed x.store result next := by
  have htaken {result : c.Result} (hp : x.point = .finished result) :
      (s.waiting n job closed x).told n { job with call := some s.pods.calls.length } (.pods c) result next =
        s.taking n job closed x.store result next := by
    simp only [told, waiting, taking, List.set_set, hp]
    rfl
  simp only [move?, waiting_getElem? hj, Option.bind_some, proceed?, hl, Option.map_eq_some_iff]
  constructor
  · rintro ⟨result, hr, rfl⟩
    have hp := Pods.System.result?_standing.mp hr
    exact ⟨result, hp, htaken hp⟩
  · rintro ⟨result, hp, rfl⟩
    exact ⟨result, Pods.System.result?_standing.mpr hp, htaken hp⟩

theorem stride_waiting (hj : s.jobs[n]? = some job) (hl : job.left = Program.ask (.pods c) next)
    (hnone : job.inquiries = []) (h : Stride manners n (s.waiting n job closed x, x.outer) y) :
    (∃ x' closed', Pods.Stride manners s.pods.backend s.pods.calls.length x x' ∧
        y = (s.waiting n job closed' x', x'.outer)) ∨
      ∃ result, x.point = .finished result ∧ y = (s.taking n job closed x.store result next, x.outer) := by
  have hown {me : Pods.Strand}
      (hc : (s.waiting n job closed x).isFor { job with call := some s.pods.calls.length } me.call = true) :
      me.call = s.pods.calls.length := by
    have hnone' : ({ job with call := some s.pods.calls.length } : Job α).inquiries = [] := hnone
    exact (Option.some.inj ((isFor_of_nil hnone').mp hc)).symm
  obtain ⟨p, st, o⟩ := x
  cases h with
  | proceed h =>
    obtain ⟨result, hp, rfl⟩ := (proceed_waiting hj hl).mp h
    exact .inr ⟨result, hp, rfl⟩
  | hear hj' hl' h =>
    cases hj'.symm.trans (waiting_getElem? hj)
    cases hl.symm.trans hl'
  | pursue hj' hk h | learn hj' hk hi hl' h =>
    cases hj'.symm.trans (waiting_getElem? hj)
    exact absurd (hnone ▸ hk) List.not_mem_nil
  | advance hj' hc h =>
    rename_i me
    cases hj'.symm.trans (waiting_getElem? hj)
    have hme : me.call = s.pods.calls.length := hown hc
    obtain ⟨v, hv, rfl⟩ := Option.map_eq_some_iff.mp h
    have hv : (s.pods.standing st p).advance me = some v := hv
    rw [Pods.System.advance_standing hme, Option.map_eq_some_iff] at hv
    obtain ⟨⟨q, u⟩, hq, rfl⟩ := hv
    exact .inl ⟨⟨q, u, o⟩, _, .advance me hme hq, rfl⟩
  | answer hj' hc ha h =>
    rename_i o' job' me request a
    cases hj'.symm.trans (waiting_getElem? hj)
    have hme : me.call = s.pods.calls.length := hown hc
    obtain ⟨v, hv, rfl⟩ := Option.map_eq_some_iff.mp h
    have hv : (s.pods.standing st p).answer me request a = some v := hv
    rw [Pods.System.answer_standing hme] at hv
    by_cases hr : p.request? me st = some request
    · rw [if_pos hr, Option.map_eq_some_iff] at hv
      obtain ⟨⟨q, u⟩, hq, rfl⟩ := hv
      exact .inl ⟨⟨q, u, o'⟩, _, .answer me hme hr ha hq, rfl⟩
    · rw [if_neg hr] at hv
      cases hv

theorem exists_stride_waiting (hj : s.jobs[n]? = some job)
    (h : Pods.Stride manners s.pods.backend s.pods.calls.length x x') (closed : List Connection) :
    ∃ closed', Stride manners n (s.waiting n job closed x, x.outer) (s.waiting n job closed' x', x'.outer) := by
  have hfor {me : Pods.Strand} (hme : me.call = s.pods.calls.length) {x : Pods.Scene c V G} :
      (s.waiting n job closed x).isFor { job with call := some s.pods.calls.length } me.call = true :=
    isFor_eq_true.mpr (.inl (congrArg some hme.symm))
  cases h with
  | advance me hme hq =>
    refine ⟨closed ++ closes (.advance me), .advance (waiting_getElem? hj) (hfor hme) ?_⟩
    show Option.map _ ((s.pods.standing _ _).advance me) = _
    rw [Pods.System.advance_standing hme, hq]
    rfl
  | answer me hme hr ha hq =>
    rename_i request a
    refine ⟨closed ++ closes (.answer me request a), .answer (waiting_getElem? hj) (hfor hme) ha ?_⟩
    show Option.map _ ((s.pods.standing _ _).answer me request a) = _
    rw [Pods.System.answer_standing hme, if_pos hr, hq]
    rfl

/-- A job with a call that comes to a value takes the result of the call, when it has come to its end. -/
theorem Finishes.ends {a : α} (hj : s.jobs[n]? = some job) (hl : job.left = Program.ask (.pods c) next)
    (hnone : job.inquiries = []) (h : Finishes manners n (s.waiting n job closed x, x.outer) a t o') :
    ∃ result st p closed', Pods.Ends manners s.pods.backend s.pods.calls.length x result st p ∧
      Finishes manners n (s.taking n job closed' st result next, p) a t o' := by
  obtain ⟨hsteps, hdone⟩ := h
  generalize hy : (s.waiting n job closed x, x.outer) = y at hsteps
  induction hsteps using ReflTransGen.head_induction_on generalizing x closed with
  | refl =>
    cases hy
    obtain ⟨job', hj', hleft⟩ := hdone
    cases hj'.symm.trans (waiting_getElem? hj)
    cases hl.symm.trans hleft
  | head hstep hrest ih =>
    subst hy
    obtain ⟨x', closed', hx, rfl⟩ | ⟨result, hp, rfl⟩ := stride_waiting hj hl hnone hstep
    · obtain ⟨result, st, p, closed'', hends, hfin⟩ := ih rfl
      exact ⟨result, st, p, closed'', .head hx hends, hfin⟩
    · obtain ⟨point, st, p⟩ := x
      obtain rfl : point = .finished result := hp
      exact ⟨result, st, p, closed, .refl, hrest, hdone⟩

theorem exists_taking {result : c.Result} {st : Pods.Store} {p : Pods.Outer V G} (hj : s.jobs[n]? = some job)
    (hl : job.left = Program.ask (.pods c) next)
    (h : Pods.Ends manners s.pods.backend s.pods.calls.length x result st p) (closed : List Connection) :
    ∃ closed', ReflTransGen (Stride manners n) (s.waiting n job closed x, x.outer)
      (s.taking n job closed' st result next, p) := by
  unfold Pods.Ends at h
  generalize hz : (⟨.finished result, st, p⟩ : Pods.Scene c V G) = z at h
  induction h using ReflTransGen.head_induction_on generalizing closed with
  | refl =>
    subst hz
    exact ⟨closed, .single (.proceed ((proceed_waiting hj hl).mpr ⟨result, rfl, rfl⟩))⟩
  | head hstep hrest ih =>
    obtain ⟨closed', hfirst⟩ := exists_stride_waiting hj hstep closed
    obtain ⟨closed'', hmore⟩ := ih closed'
    exact ⟨closed'', .head hfirst hmore⟩

end

/-! ### A job without a call -/

/-- A job that waits for no call either starts one, has a reply of the service, or is answered by an agent. -/
theorem stride_of_call_none {y : Shim α × Pods.Outer V G} (hj : s.jobs[n]? = some job) (hc : job.call = none)
    (hnone : job.inquiries = []) (h : Stride manners n (s, o) y) :
    (∃ act next, job.left = Program.ask act next) ∧
      (∀ (c : Pods.Call) (next : c.Result → Course α), job.left = Program.ask (.pods c) next →
        y = (s.calling n job c, o)) ∧
      ∀ (connection : Connection) (request : Agent.Request) (next : Except Failure request.Answer → Course α),
        job.left = Program.ask (.forward connection request) next →
          y = (s.told n job (.forward connection request) (manners.serve request (o.agent connection)).1 next,
            o.setAgent connection (manners.serve request (o.agent connection)).2) := by
  cases h with
  | proceed h =>
    simp only [move?, hj, Option.bind_some, proceed?, hc] at h
    split at h
    · rename_i c next hl
      cases h
      refine ⟨⟨_, _, hl⟩, fun c' next' hl' => ?_, fun connection request next' hl' => ?_⟩
      · cases hl.symm.trans hl'
        rfl
      · cases hl.symm.trans hl'
    · rename_i act next hpods hl
      obtain ⟨⟨reply, u⟩, ho, rfl⟩ := Option.map_eq_some_iff.mp h
      refine ⟨⟨_, _, hl⟩, fun c' next' hl' => ?_, fun connection request next' hl' => ?_⟩
      · cases hl.symm.trans hl'
        cases ho
      · cases hl.symm.trans hl'
        cases ho
    · cases h
  | hear hj' hl h =>
    cases hj'.symm.trans hj
    refine ⟨⟨_, _, hl⟩, fun c' next' hl' => ?_, fun connection request next' hl' => ?_⟩
    · cases hl.symm.trans hl'
    · cases hl.symm.trans hl'
      simp only [move?, hj, Option.bind_some, hear?, hl] at h
      cases h
      rfl
  | pursue hj' hk h | learn hj' hk hi hl h =>
    cases hj'.symm.trans hj
    exact absurd (hnone ▸ hk) List.not_mem_nil
  | advance hj' hc' h | answer hj' hc' ha h =>
    cases hj'.symm.trans hj
    cases hc.symm.trans ((isFor_of_nil hnone).mp hc')

theorem finishes_done {a b : α} (hj : s.jobs[n]? = some job) (hc : job.call = none) (hnone : job.inquiries = [])
    (hl : job.left = Program.done b) : Finishes manners n (s, o) a t o' ↔ a = b ∧ t = s ∧ o' = o := by
  constructor
  · rintro ⟨hsteps, job', hj', hleft⟩
    rcases hsteps.cases_head with heq | ⟨y, hy, -⟩
    · cases heq
      cases hj.symm.trans hj'
      cases hl.symm.trans hleft
      exact ⟨rfl, rfl, rfl⟩
    · obtain ⟨⟨act, next, hask⟩, -⟩ := stride_of_call_none hj hc hnone hy
      cases hl.symm.trans hask
  · rintro ⟨rfl, rfl, rfl⟩
    exact ⟨.refl, job, hj, hl⟩

theorem Finishes.cases_head {a : α} {act : Act} {next : act.Reply → Course α} (hj : s.jobs[n]? = some job)
    (hl : job.left = Program.ask act next) (h : Finishes manners n (s, o) a t o') :
    ∃ y, Stride manners n (s, o) y ∧ Finishes manners n y a t o' := by
  obtain ⟨hsteps, hdone⟩ := h
  rcases hsteps.cases_head with heq | ⟨y, hy, hrest⟩
  · cases heq
    obtain ⟨job', hj', hleft⟩ := hdone
    cases hj.symm.trans hj'
    cases hl.symm.trans hleft
  · exact ⟨y, hy, hrest, hdone⟩

/-- A job that asks the pods and agents only comes to what its course comes to. -/
theorem Finishes.comes {a : α} (hj : s.jobs[n]? = some job) (hc : job.call = none) (hnone : job.inquiries = [])
    (hplain : job.left.Uses Act.Plain) (h : Finishes manners n (s, o) a t o') :
    job.left.Comes manners s.pods.backend a t.pods.store o' s.pods.calls.length s.pods.store o ∧
      t.setting = s.setting := by
  generalize hleft : job.left = left at hplain ⊢
  induction left generalizing s o job with
  | done b =>
    obtain ⟨rfl, rfl, rfl⟩ := (finishes_done hj hc hnone hleft).mp h
    exact ⟨⟨rfl, rfl, rfl⟩, rfl⟩
  | crash why =>
    obtain ⟨hsteps, job', hj', hdone⟩ := h
    rcases hsteps.cases_head with heq | ⟨y, hy, -⟩
    · cases heq
      cases hj.symm.trans hj'
      cases hleft.symm.trans hdone
    · obtain ⟨⟨act, next, hask⟩, -⟩ := stride_of_call_none hj hc hnone hy
      cases hleft.symm.trans hask
  | ask act next ih =>
    obtain ⟨y, hy, hrest⟩ := h.cases_head hj hleft
    obtain ⟨-, hpods, hforward⟩ := stride_of_call_none hj hc hnone hy
    obtain ⟨c, rfl⟩ | ⟨connection, request, rfl⟩ := hplain.1
    · obtain rfl := hpods c next hleft
      have hrest : Finishes manners n (s.waiting n job s.closed ⟨.initial c, s.pods.store, o⟩, o) a t o' := hrest
      obtain ⟨result, st, p, closed', hends, hrest⟩ := hrest.ends hj hleft hnone
      have hnone' := (Job.inquiries_replied result next nofun).trans hnone
      obtain ⟨hcomes, hsetting⟩ := ih result (taking_getElem? hj) rfl hnone' hrest rfl (hplain.2 result)
      have hcount : (s.taking n job closed' st result next).pods.calls.length = s.pods.calls.length + 1 := by
        simp [taking, Pods.System.standing]
      rw [hcount] at hcomes
      exact ⟨⟨result, st, p, hends, hcomes⟩, hsetting⟩
    · obtain rfl := hforward connection request next hleft
      have hnone' := (Job.inquiries_replied (manners.serve request (o.agent connection)).1 next nofun).trans hnone
      exact ih _ (s := s.told n job _ _ next) (told_getElem? hj) rfl hnone' hrest rfl (hplain.2 _)

theorem exists_finishes {a : α} {st : Pods.Store} (hj : s.jobs[n]? = some job) (hc : job.call = none)
    (h : job.left.Comes manners s.pods.backend a st o' s.pods.calls.length s.pods.store o) :
    ∃ t, Finishes manners n (s, o) a t o' ∧ t.pods.store = st := by
  generalize hleft : job.left = left at h
  induction left generalizing s o job with
  | done b =>
    obtain ⟨rfl, rfl, rfl⟩ := h
    exact ⟨s, ⟨.refl, job, hj, hleft⟩, rfl⟩
  | crash why => exact h.elim
  | ask act next ih =>
    cases act with
    | pods c =>
      obtain ⟨result, u, p, hends, hcomes⟩ := h
      obtain ⟨closed', htaken⟩ := exists_taking hj hleft hends s.closed
      have hcount : (s.taking n job closed' u result next).pods.calls.length = s.pods.calls.length + 1 := by
        simp [taking, Pods.System.standing]
      rw [← hcount] at hcomes
      obtain ⟨t, ⟨hsteps, hdone⟩, hstore⟩ := ih result (taking_getElem? hj) rfl rfl hcomes
      have hcall : s.move? (.proceed n) = some (s.calling n job c) := by
        simp only [move?, hj, Option.bind_some, proceed?, hleft, hc]
      exact ⟨t, ⟨.head (.proceed hcall) (htaken.trans hsteps), hdone⟩, hstore⟩
    | forward connection request =>
      have hmove : s.move? (.hear n (.agent fun request => (manners.serve request (o.agent connection)).1)) =
          some (s.told n job (.forward connection request) (manners.serve request (o.agent connection)).1 next) := by
        simp only [move?, hj, Option.bind_some, hear?, hleft]
        rfl
      obtain ⟨t, ⟨hsteps, hdone⟩, hstore⟩ :=
        ih _ (told_getElem? hj) rfl rfl h
      exact ⟨t, ⟨.head (.hear hj hleft hmove) hsteps, hdone⟩, hstore⟩
    | _ => exact h.elim

/-! ### Executions -/

section
variable {course : Course α} {a : α}

theorem received_getElem? : (s.jobs ++ [Job.fresh course])[s.jobs.length]? = some (.fresh course) :=
  List.getElem?_concat_length

/-- The job that an execution ends is the one that was received. -/
theorem Executes.ended (h : Executes manners s o course a t o') :
    ∃ job, t.jobs[s.jobs.length]? = some job ∧ job.course = course ∧ job.left = Program.done a := by
  obtain ⟨job, hj, hleft⟩ := h.2
  obtain ⟨ms, log, hrun⟩ := Finishes.run h
  obtain ⟨kept, hkept, hcourse⟩ := hrun.kept received_getElem?
  cases hj.symm.trans hkept
  exact ⟨job, hj, hcourse, hleft⟩

theorem Executes.comes (hplain : course.Uses Act.Plain) (h : Executes manners s o course a t o') :
    course.Comes manners s.pods.backend a t.pods.store o' s.pods.calls.length s.pods.store o ∧
      t.setting = s.setting :=
  Finishes.comes received_getElem? rfl rfl hplain h

theorem exists_executes {st : Pods.Store}
    (h : course.Comes manners s.pods.backend a st o' s.pods.calls.length s.pods.store o) :
    ∃ t, Executes manners s o course a t o' ∧ t.pods.store = st :=
  exists_finishes received_getElem? rfl h

theorem executes_done {b : α} :
    Executes manners s o (.done b) a t o' ↔ a = b ∧ t = { s with jobs := s.jobs ++ [.fresh (.done b)] } ∧ o' = o :=
  finishes_done received_getElem? rfl rfl rfl

end

end Shim
end PodMachines
