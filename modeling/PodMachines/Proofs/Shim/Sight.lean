import PodMachines.Proofs.Pods.Glance
import PodMachines.Proofs.Shim.Careful
import PodMachines.Proofs.Shim.Job

/-! What jobs see of the directory. A job that was told what the directory holds looked there while it was under way,
    at one state that the run passed. A job that only looks and forwards can be brought to its end from every state,
    whatever the agents answer. -/

namespace PodMachines
open Service

namespace Shim
variable {α : Type} {first s t u : Shim α} {ms more : List (Move α)} {log since after : List Pods.Note} {n : Nat}
  {job : Job α}

/-! ### States on the way -/

/-- A run passes a state, with what is noted of the pods from there on. -/
def Passes (first : Shim α) (ms : List (Move α)) (log : List Pods.Note) (t s : Shim α) (since : List Pods.Note) :
    Prop :=
  ∃ before rest earlier, ms = before ++ rest ∧ log = earlier ++ since ∧ Run first before earlier s ∧ Run s rest since t

theorem Run.passes (h : Run first ms log t) : Passes first ms log t t [] :=
  ⟨ms, [], log, (List.append_nil _).symm, (List.append_nil _).symm, h, .rest⟩

theorem Passes.trans (h : Passes first ms log t s since) (hr : Run t more after u) :
    Passes first (ms ++ more) (log ++ after) u s (since ++ after) := by
  obtain ⟨before, rest, earlier, rfl, rfl, hbefore, hrest⟩ := h
  exact ⟨before, rest ++ more, earlier, List.append_assoc .., List.append_assoc .., hbefore, hrest.trans hr⟩

theorem Passes.move (h : Passes first ms log t s since) {m : Move α} (hm : t.move? m = some u) :
    Passes first (ms ++ [m]) (log ++ t.notes m) u s (since ++ t.notes m) :=
  h.trans (Run.rest.move m hm)

/-- Of two states that a run passes, it passes one on its way from the other. -/
theorem Passes.total {s' : Shim α} {since' : List Pods.Note} (h : Passes first ms log t s since)
    (h' : Passes first ms log t s' since') :
    (∃ mid noted, Run s mid noted s' ∧ since = noted ++ since') ∨
      ∃ mid noted, Run s' mid noted s ∧ since' = noted ++ since := by
  have between {s s' : Shim α} {before before' rest rest' mid : List (Move α)} {e e' n n' : List Pods.Note}
      (hb : Run first before e s) (hr : Run s rest n t) (hb' : Run first before' e' s') (hr' : Run s' rest' n' t)
      (hbefore : before' = before ++ mid) (hrest : rest = mid ++ rest') :
      ∃ noted, Run s mid noted s' ∧ n = noted ++ n' := by
    subst hbefore hrest
    obtain ⟨noted, tail, v, rfl, hmid, htail⟩ := hr.split
    obtain ⟨rfl, -⟩ := (hb.trans hmid).unique hb'
    obtain ⟨-, rfl⟩ := htail.unique hr'
    exact ⟨noted, hmid, rfl⟩
  obtain ⟨before, rest, earlier, rfl, -, hbefore, hrest⟩ := h
  obtain ⟨before', rest', earlier', hms, -, hbefore', hrest'⟩ := h'
  obtain ⟨mid, hmid, hmid'⟩ | ⟨mid, hmid, hmid'⟩ := List.append_eq_append_iff.mp hms
  · obtain ⟨noted, h⟩ := between hbefore hrest hbefore' hrest' hmid hmid'
    exact .inl ⟨mid, noted, h⟩
  · obtain ⟨noted, h⟩ := between hbefore' hrest' hbefore hrest hmid hmid'
    exact .inr ⟨mid, noted, h⟩

/-! ### Looking -/

/-- A job that has been replied so much is about to look: its call is in the directory, and is told this there. -/
def Looks (s : Shim α) (n : Nat) (talk : Program.Talk Act Act.Reply) (c : Pods.Call) (result : c.Result) : Prop :=
  ∃ job k, s.jobs[n]? = some job ∧ job.talk = talk ∧ job.call = some k ∧
    s.pods.calls[k]? = some ⟨c, .inside .lookup⟩ ∧ s.pods.store.glance c = some result

/-- What a job was told of the directory, or is about to be told, was there when it looked. -/
structure Seen (first : Shim α) (ms : List (Move α)) (log : List Pods.Note) (t : Shim α) (n : Nat) (job : Job α) :
    Prop where
  told : ∀ {talk rest : Program.Talk Act Act.Reply} {c : Pods.Call} {result : c.Result},
    job.talk = talk ++ ⟨.pods c, result⟩ :: rest → c.Glances →
      ∃ s since, Passes first ms log t s since ∧ s.Looks n talk c result
  ended : ∀ {k : Nat} {c : Pods.Call} {result : c.Result}, job.call = some k → c.Glances →
    t.pods.calls[k]? = some ⟨c, .finished result⟩ →
      ∃ s since, Passes first ms log t s since ∧ s.Looks n job.talk c result

/-- What stands in a list with one more at its end is the last or stood there before. -/
theorem of_concat_eq {β : Type} {l pre rest : List β} {x y : β} (h : l ++ [y] = pre ++ x :: rest) :
    (l = pre ∧ y = x) ∨ ∃ rest', l = pre ++ x :: rest' := by
  rcases List.eq_nil_or_concat rest with rfl | ⟨rest', z, rfl⟩
  · obtain ⟨hl, hy⟩ := List.append_inj' h rfl
    exact .inl ⟨hl, (List.cons.inj hy).1⟩
  · rw [List.concat_eq_append, ← List.cons_append, ← List.append_assoc] at h
    exact .inr ⟨rest', (List.append_inj' h rfl).1⟩

theorem Seen.move {m : Move α} (h : Seen first ms log t n job) (hm : t.move? m = some u) {job' : Job α}
    (htalk : job'.talk = job.talk)
    (hended : ∀ {k : Nat} {c : Pods.Call} {result : c.Result}, job'.call = some k → c.Glances →
      u.pods.calls[k]? = some ⟨c, .finished result⟩ →
        ∃ s since, Passes first ms log t s since ∧ s.Looks n job.talk c result) :
    Seen first (ms ++ [m]) (log ++ t.notes m) u n job' where
  told := by
    intro talk rest c result ht hc
    obtain ⟨s, since, hp, hl⟩ := h.told (htalk ▸ ht) hc
    exact ⟨s, _, hp.move hm, hl⟩
  ended := by
    intro k c result hk hc hu
    obtain ⟨s, since, hp, hl⟩ := hended hk hc hu
    exact ⟨s, _, hp.move hm, htalk ▸ hl⟩

theorem Seen.replied {act : Act} {reply : act.Reply} {next : act.Reply → Course α} {m : Move α}
    (h : Seen first ms log t n job) (hm : t.move? m = some u)
    (hlast : ∀ {c : Pods.Call} {result : c.Result}, (⟨act, reply⟩ : (act : Act) × act.Reply) = ⟨.pods c, result⟩ →
      c.Glances → ∃ s since, Passes first ms log t s since ∧ s.Looks n job.talk c result) :
    Seen first (ms ++ [m]) (log ++ t.notes m) u n (job.replied act reply next) where
  told := by
    intro talk rest c result ht hc
    obtain ⟨rfl, heq⟩ | ⟨rest', htalk⟩ := of_concat_eq ht
    · obtain ⟨s, since, hp, hl⟩ := hlast heq hc
      exact ⟨s, _, hp.move hm, hl⟩
    · obtain ⟨s, since, hp, hl⟩ := h.told htalk hc
      exact ⟨s, _, hp.move hm, hl⟩
  ended := nofun

theorem initial_ne_finished {c : Pods.Call} (hc : c.Glances) (result : c.Result) :
    Pods.Point.initial c ≠ .finished result := by
  obtain ⟨id, rfl⟩ | ⟨id, rfl⟩ | rfl := hc <;> exact nofun

/-- What a job was told of the directory was there at a state that the run passed. -/
theorem Run.seen (h : Run first ms log t) (hn : first.jobs.length ≤ n) (hj : t.jobs[n]? = some job) :
    Seen first ms log t n job := by
  induction h generalizing job with
  | rest => exact absurd (List.getElem?_eq_some_iff.mp hj).1 (Nat.not_lt_of_le hn)
  | @move ms log t u h m hm ih =>
    have hg := goes_of_move hm
    obtain ⟨course, -, -, rfl⟩ | ⟨old, hold, hturn⟩ := hg.turn hj
    · exact ⟨fun ht => (by simp [Job.fresh] at ht), nofun⟩
    · have hseen := ih hold
      cases hturn with
      | stay hne hw =>
        refine hseen.move hm rfl fun {k c result} hk hc hu => ?_
        obtain ⟨c', next, p, hl, hp⟩ := (h.sound hn hold).waits hk
        obtain ⟨p', hp'⟩ := hg.call_kept hp
        obtain rfl : c' = c := congrArg Pods.Running.call (Option.some.inj (hp'.symm.trans hu))
        have looked (hfin : p = .finished result) :
            ∃ s since, Passes first ms log t s since ∧ s.Looks n job.talk c' result :=
          hseen.ended hk hc (hfin ▸ hp)
        obtain hpods | ⟨pm, hpm, -⟩ := hg.pods_eq
        · rw [hpods, hp] at hu
          cases hu
          exact looked rfl
        · obtain hfin | ⟨-, rfl, hglance⟩ := Pods.System.glanced hpm hc hp hu
          · exact looked hfin
          · exact ⟨t, _, h.passes, job, k, hold, rfl, hk, hp, hglance⟩
      | call hl hcall ht =>
        refine hseen.move hm rfl fun {k c result} hk hc hu => ?_
        cases hk
        rw [ht, Pods.System.start, List.getElem?_concat_length] at hu
        obtain ⟨rfl, hu⟩ := Pods.Running.mk.inj (Option.some.inj hu)
        exact absurd (eq_of_heq hu) (initial_ne_finished hc result)
      | @take _ k c next result hl hcall hr ht =>
        refine hseen.replied hm fun {c' result'} heq hc => ?_
        cases heq
        exact hseen.ended hcall hc (Pods.System.result?_eq_some.mp hr)
      | own hl ho ht =>
        refine hseen.replied hm fun heq hc => ?_
        cases heq
        cases ho
      | @hear _ word act next reply hl hw ht =>
        refine hseen.replied hm fun heq hc => ?_
        cases heq
        cases word <;> cases hw

/-! ### Coming to an end -/

/-- What the pods can go through alone, the service goes through with them. -/
theorem run_of_pods {v : Pods.System} (h : Pods.Run s.pods log v) :
    ∃ ms closed, Run s ms log { s with pods := v, closed := closed } := by
  induction h with
  | rest => exact ⟨[], s.closed, .rest⟩
  | @move log v w _ m hm ih =>
    obtain ⟨ms, closed, ih⟩ := ih
    refine ⟨ms ++ [.pods m], closed ++ closes m, ih.move (.pods m) ?_⟩
    simp only [move?, hm, Option.map_some]

/-- A request to an agent, and what it came to. -/
structure Forwarded where
  connection : Connection
  request : Agent.Request
  answer : Except Failure request.Answer

/-- The requests to agents among what was asked. -/
def forwarded (talk : Program.Talk Act Act.Reply) : List Forwarded :=
  talk.filterMap fun
    | ⟨.forward connection request, answer⟩ => some ⟨connection, request, answer⟩
    | _ => none

@[simp] theorem forwarded_append (talk rest : Program.Talk Act Act.Reply) :
    forwarded (talk ++ rest) = forwarded talk ++ forwarded rest :=
  List.filterMap_append

@[simp] theorem forwarded_pods (c : Pods.Call) (result : c.Result) : forwarded [⟨.pods c, result⟩] = [] := rfl

@[simp] theorem forwarded_forward (connection : Connection) (request : Agent.Request)
    (answer : Except Failure request.Answer) :
    forwarded [⟨.forward connection request, answer⟩] = [⟨connection, request, answer⟩] := rfl

/-- Whether what is asked only looks into the directory or goes to an agent. -/
def OnlyLooks (act : Act) : Prop :=
  (∃ c : Pods.Call, act = .pods c ∧ c.Glances) ∨ ∃ connection request, act = .forward connection request

section
variable {backend : String} {catalog : Option String} {now : Nat} {images : Option Images}

/-- A job whose call only looks is told what the call comes to, however far the call is. -/
theorem Run.told_of_glance (h : Run (.new backend catalog now images) ms log s) {k : Nat} {c : Pods.Call}
    {next : c.Result → Course α} {p : Pods.Point c} (hj : s.jobs[n]? = some job)
    (hl : job.left = Program.ask (.pods c) next) (hcall : job.call = some k) (hp : s.pods.calls[k]? = some ⟨c, p⟩)
    (hc : c.Glances) :
    ∃ more after t result, Run s more after t ∧ t.jobs[n]? = some (job.replied (.pods c) result next) := by
  obtain ⟨after, v, result, hrun, hv⟩ := h.pods.glance_ends hc hp
  obtain ⟨more, closed, hrun⟩ := run_of_pods hrun
  have hm : Shim.move? { s with pods := v, closed := closed } (.proceed n) =
      some (told { s with pods := v, closed := closed } n job (.pods c) result next) := by
    simp only [move?, hj, Option.bind_some, proceed?, hl, hcall, Pods.System.result?_eq_some.mpr hv, Option.map_some]
  exact ⟨_, _, _, result, hrun.move _ hm, List.getElem?_set_self (List.getElem?_eq_some_iff.mp hj).1⟩

theorem Run.told_of_glances (h : Run (.new backend catalog now images) ms log s) {c : Pods.Call}
    {next : c.Result → Course α} (hj : s.jobs[n]? = some job) (hl : job.left = Program.ask (.pods c) next)
    (hc : c.Glances) :
    ∃ more after t result, Run s more after t ∧ t.jobs[n]? = some (job.replied (.pods c) result next) := by
  cases hcall : job.call with
  | some k =>
    obtain ⟨c', next', p, hl', hp⟩ := (h.sound (Nat.zero_le n) hj).waits hcall
    rw [hl] at hl'
    cases hl'
    exact h.told_of_glance hj hl hcall hp hc
  | none =>
    have hm : s.move? (.proceed n) = some (s.calling n job c) := by
      simp only [move?, hj, Option.bind_some, proceed?, hl, hcall]
    have hv : (s.calling n job c).jobs[n]? = some { job with call := some s.pods.calls.length } :=
      List.getElem?_set_self (List.getElem?_eq_some_iff.mp hj).1
    have hp : (s.calling n job c).pods.calls[s.pods.calls.length]? = some ⟨c, .initial c⟩ := List.getElem?_concat_length
    obtain ⟨more, after, t, result, hrun, ht⟩ := (h.move _ hm).told_of_glance hv hl rfl hp hc
    exact ⟨_, _, t, result, (Run.rest.move _ hm).trans hrun, ht⟩

/-- A job that only looks and forwards can be brought to its end, whatever the agents answer. -/
theorem Run.completes (h : Run (.new backend catalog now images) ms log s) (hj : s.jobs[n]? = some job)
    (huses : job.left.Uses OnlyLooks) (hsturdy : job.left.Sturdy)
    (agent : Connection → (request : Agent.Request) → Except Failure request.Answer) :
    ∃ more after t job' a, Run s more after t ∧ t.jobs[n]? = some job' ∧ job'.left = Program.done a ∧
      ∀ f ∈ forwarded job'.talk, f ∈ forwarded job.talk ∨ f.answer = agent f.connection f.request := by
  generalize hleft : job.left = left at huses hsturdy
  induction left generalizing s job ms log with
  | done a => exact ⟨[], [], s, job, a, .rest, hj, hleft, fun f hf => .inl hf⟩
  | crash why => exact hsturdy.elim
  | ask act next ih =>
    -- After a reply the rest of the course is as good.
    have goOn {more : List (Move α)} {after : List Pods.Note} {t : Shim α} {reply : act.Reply} (hr : Run s more after t)
        (hj' : t.jobs[n]? = some (job.replied act reply next))
        (hf : ∀ f ∈ forwarded [⟨act, reply⟩], f.answer = agent f.connection f.request) :
        ∃ more after t job' a, Run s more after t ∧ t.jobs[n]? = some job' ∧ job'.left = Program.done a ∧
          ∀ f ∈ forwarded job'.talk, f ∈ forwarded job.talk ∨ f.answer = agent f.connection f.request := by
      obtain ⟨more', after', u, job', a, hr', hu, ha, hall⟩ :=
        ih reply (h.trans hr) hj' rfl (huses.2 reply) (hsturdy reply)
      refine ⟨_, _, u, job', a, hr.trans hr', hu, ha, fun f hmem => ?_⟩
      obtain hold | hnew := hall f hmem
      · rw [Job.replied, forwarded_append] at hold
        exact (List.mem_append.mp hold).imp_right (hf f)
      · exact .inr hnew
    obtain ⟨c, rfl, hc⟩ | ⟨connection, request, rfl⟩ := huses.1
    · obtain ⟨more, after, t, result, hr, ht⟩ := h.told_of_glances hj hleft hc
      exact goOn hr ht (by simp)
    · have hm : s.move? (.hear n (.agent (agent connection))) =
          some (s.told n job (.forward connection request) (agent connection request) next) := by
        simp only [move?, hj, Option.bind_some, hear?, hleft]
        rfl
      exact goOn (Run.rest.move _ hm) (List.getElem?_set_self (List.getElem?_eq_some_iff.mp hj).1) (by simp)

end

end Shim
end PodMachines
