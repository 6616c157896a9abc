import PodMachines.Proofs.Pods.Account
import PodMachines.Proofs.Shim.Run

/-! What a move makes of one job. In every state that a run comes to, a job has been led from its course to what is
    left of it by its talk, and while it waits for a call, that call is the one it asks for. -/

namespace PodMachines
open Service

namespace Job
variable {α : Type}

/-- What a move from one state to another makes of the `n`-th job. -/
inductive Turn (s t : Shim α) (n : Nat) : Shim.Move α → Job α → Job α → Prop
  | stay {m : Shim.Move α} {job : Job α} (hm : m ≠ .proceed n) (hw : ∀ word, m ≠ .hear n word) : Turn s t n m job job
  | call {job : Job α} {c : Pods.Call} {next : c.Result → Course α} (hl : job.left = Program.ask (.pods c) next)
      (hc : job.call = none) (ht : t.pods = s.pods.start c) :
      Turn s t n (.proceed n) job { job with call := some s.pods.calls.length }
  | take {job : Job α} {k : Nat} {c : Pods.Call} {next : c.Result → Course α} {result : c.Result}
      (hl : job.left = Program.ask (.pods c) next) (hc : job.call = some k)
      (hr : s.pods.result? k c = some result) (ht : t.pods = s.pods) :
      Turn s t n (.proceed n) job (job.replied (.pods c) result next)
  | own {job : Job α} {act : Act} {next : act.Reply → Course α} {reply : act.Reply} {u : Shim α}
      (hl : job.left = Program.ask act next) (ho : s.own act = some (reply, u)) (ht : t = u.told n job act reply next) :
      Turn s t n (.proceed n) job (job.replied act reply next)
  | hear {job : Job α} {word : Shim.Word} {act : Act} {next : act.Reply → Course α} {reply : act.Reply}
      (hl : job.left = Program.ask act next) (hw : word.reply? act = some reply)
      (ht : t = (s.closing act).told n job act reply next) : Turn s t n (.hear n word) job (job.replied act reply next)

theorem result?_eq_some {job : Job α} {a : α} : job.result? = some a ↔ job.left = Program.done a := by
  unfold result?
  cases job.left <;> simp

/-- With a reply of the pods or of an agent a job has no more inquiries than before. -/
theorem inquiries_replied {job : Job α} {act : Act} (reply : act.Reply) (next : act.Reply → Course α)
    (h : ∀ filter ids, act ≠ .inquire filter ids) : (job.replied act reply next).inquiries = job.inquiries := by
  have hnil : inquiries ⟨job.course, [⟨act, reply⟩], job.left, job.call⟩ = [] := by
    cases act with
    | inquire filter ids => exact absurd rfl (h filter ids)
    | _ => rfl
  exact List.flatMap_append.trans ((congrArg (_ ++ ·) hnil).trans (List.append_nil _))

theorem inquiries_inquire {job : Job α} (filter : Option Message.ContainerFilter) (ids : List String) (numbers : List Nat)
    (next : List Nat → Course α) :
    (job.replied (.inquire filter ids) numbers next).inquiries = job.inquiries ++ numbers :=
  List.flatMap_append.trans (congrArg (_ ++ ·) (List.append_nil _))

/-- A job that its talk has led to what is left of it, and that waits for no call but the one it asks for. -/
structure Sound (s : Shim α) (job : Job α) : Prop where
  leads : job.course.Leads job.talk job.left
  waits : ∀ {k : Nat}, job.call = some k → ∃ (c : Pods.Call) (next : c.Result → Course α) (p : Pods.Point c),
    job.left = Program.ask (.pods c) next ∧ s.pods.calls[k]? = some ⟨c, p⟩

/-- A job that was replied has been led on, and waits for no call. -/
theorem Sound.replied {s t : Shim α} {job : Job α} (hs : job.Sound s) {act : Act} {next : act.Reply → Course α}
    (hl : job.left = Program.ask act next) (reply : act.Reply) : (job.replied act reply next).Sound t := by
  have hleads := hs.leads
  rw [hl] at hleads
  refine ⟨hleads.snoc reply, fun hk => ?_⟩
  cases hk

theorem Sound.call_eq_none {s : Shim α} {job : Job α} (hs : job.Sound s)
    (hl : ∀ (c : Pods.Call) (next : c.Result → Course α), job.left ≠ Program.ask (.pods c) next) : job.call = none := by
  cases hc : job.call with
  | none => rfl
  | some k =>
    obtain ⟨c, next, p, hleft, -⟩ := hs.waits hc
    exact absurd hleft (hl c next)

end Job

namespace Shim
variable {α : Type} {s t : Shim α} {m : Move α} {n : Nat} {job job' : Job α}

/-- Whether a job waits for a call, or one of its inquiries does. -/
def isFor (s : Shim α) (job : Job α) (call : Nat) : Bool :=
  job.call = some call || job.inquiries.any fun k => (s.inquiries[k]?.bind (·.call)) = some call

theorem isFor_eq_true {call : Nat} : s.isFor job call = true ↔
    job.call = some call ∨ ∃ k ∈ job.inquiries, ∃ inquiry, s.inquiries[k]? = some inquiry ∧ inquiry.call = some call := by
  simp [isFor, Option.bind_eq_some_iff]

theorem isFor_of_nil {call : Nat} (h : job.inquiries = []) : s.isFor job call = true ↔ job.call = some call := by
  simp [isFor, h]

/-- A job after a move was received by it, or is what the move made of it. -/
theorem Goes.turn (h : s.Goes m t) (hj : t.jobs[n]? = some job') :
    (∃ course, m = .receive course ∧ n = s.jobs.length ∧ job' = .fresh course) ∨
      ∃ job, s.jobs[n]? = some job ∧ Job.Turn s t n m job job' := by
  -- A move that changes one job leaves another one as it was.
  have changed {k : Nat} {job new : Job α} (hk : s.jobs[k]? = some job) (ht : t.jobs = s.jobs.set k new)
      (hturn : Job.Turn s t k m job new) (hm : k ≠ n → m ≠ .proceed n) (hw : k ≠ n → ∀ word, m ≠ .hear n word) :
      ∃ job, s.jobs[n]? = some job ∧ Job.Turn s t n m job job' := by
    rw [ht] at hj
    by_cases hkn : k = n
    · subst hkn
      rw [List.getElem?_set_self (List.getElem?_eq_some_iff.mp hk).1] at hj
      cases hj
      exact ⟨job, hk, hturn⟩
    · rw [List.getElem?_set_ne hkn] at hj
      exact ⟨job', hj, .stay (hm hkn) (hw hkn)⟩
  cases h with
  | receive course =>
    simp only [List.getElem?_append] at hj
    by_cases hn : n < s.jobs.length
    · rw [if_pos hn] at hj
      exact .inr ⟨job', hj, .stay nofun nofun⟩
    · rw [if_neg hn] at hj
      have hlt := (List.getElem?_eq_some_iff.mp hj).1
      simp only [List.length_singleton] at hlt
      obtain rfl := List.mem_singleton.mp (List.mem_of_getElem? hj)
      exact .inl ⟨course, rfl, by omega, rfl⟩
  | @call k job c next hk hl hc =>
    exact .inr (changed hk rfl (.call hl hc rfl) (fun hn he => hn (Move.proceed.inj he)) nofun)
  | @take k _ job c next result hk hl hc hr =>
    exact .inr (changed hk rfl (.take hl hc hr rfl) (fun hn he => hn (Move.proceed.inj he)) nofun)
  | @own k job act next reply u hk hl ho =>
    have ht : (u.told k job act reply next).jobs = s.jobs.set k (job.replied act reply next) := by
      rw [← own_jobs ho]
      rfl
    exact .inr (changed hk ht (.own hl ho rfl) (fun hn he => hn (Move.proceed.inj he)) nofun)
  | @hear k word job act next reply hk hl hw =>
    have ht : ((s.closing act).told k job act reply next).jobs = s.jobs.set k (job.replied act reply next) := by
      rw [← closing_jobs s act]
      rfl
    exact .inr (changed hk ht (.hear hl hw rfl) nofun fun hn w he => hn (Move.hear.inj he).1)
  | seek | find | learn => exact .inr ⟨job', hj, .stay nofun nofun⟩
  | pods h => exact .inr ⟨job', hj, .stay nofun nofun⟩

theorem Goes.kept (h : s.Goes m t) (hj : s.jobs[n]? = some job) :
    ∃ job', t.jobs[n]? = some job' ∧ Job.Turn s t n m job job' := by
  have hn := (List.getElem?_eq_some_iff.mp hj).1
  have hlen : s.jobs.length ≤ t.jobs.length := by
    cases h with
    | receive course => simp
    | own hk hl ho => simp [told, own_jobs ho]
    | seek | find | learn => exact Nat.le_refl _
    | _ => simp [told, calling]
  have hj' := List.getElem?_eq_getElem (Nat.lt_of_lt_of_le hn hlen)
  refine ⟨_, hj', ?_⟩
  obtain ⟨course, -, rfl, -⟩ | ⟨old, hold, hturn⟩ := h.turn hj'
  · exact absurd hn (Nat.lt_irrefl _)
  · rw [hj] at hold
    cases hold
    exact hturn

/-! ### Calls -/

/-- The pods stay, or go on with a move of their own or with one that no strand makes. -/
theorem Goes.pods_eq (h : s.Goes m t) :
    t.pods = s.pods ∨ ∃ pm, s.pods.move? pm = some t.pods ∧ (m = .pods pm ∨ pm.strand? = none) := by
  cases h with
  | call hj hl hc => exact .inr ⟨.start _, rfl, .inr rfl⟩
  | @own k job act next reply u hj hl ho =>
    rcases own_pods ho with hpods | ⟨-, hpods⟩
    · exact .inl hpods
    · exact .inr ⟨.enableImageBoot, congrArg some hpods.symm, .inr rfl⟩
  | hear hj hl hw => exact .inl (closing_pods s _)
  | seek hi hl hc => exact .inr ⟨.start _, rfl, .inr rfl⟩
  | pods h => exact .inr ⟨_, h, .inl rfl⟩
  | _ => exact .inl rfl

/-- A call stays where it stands, or one of its strands takes a step. -/
theorem Goes.call_goes (h : s.Goes m t) {k : Nat} {c : Pods.Call} {p : Pods.Point c}
    (hk : s.pods.calls[k]? = some ⟨c, p⟩) :
    ∃ p' : Pods.Point c, t.pods.calls[k]? = some ⟨c, p'⟩ ∧
      (p' = p ∨ ∃ me ds st, Pods.Pace s.pods.backend me s.pods.store ⟨c, p⟩ ds ⟨c, p'⟩ st) := by
  obtain hpods | ⟨pm, hpm, -⟩ := h.pods_eq
  · exact ⟨p, hpods ▸ hk, .inl rfl⟩
  · have hgoes := Pods.System.goes_of_move hpm
    generalize s.pods.notes pm = ns at hgoes
    generalize t.pods = v at hgoes ⊢
    cases hgoes with
    | start c' =>
      refine ⟨p, ?_, .inl rfl⟩
      rw [Pods.System.start, List.getElem?_append_left (List.getElem?_eq_some_iff.mp hk).1, hk]
    | @pace me p₀ q ds st hp hq =>
      by_cases hme : me.call = k
      · subst hme
        obtain rfl := Option.some.inj (hp.symm.trans hk)
        obtain ⟨c', p'⟩ := q
        obtain rfl : c' = c := hq.may.1
        exact ⟨p', List.getElem?_set_self (List.getElem?_eq_some_iff.mp hp).1, .inr ⟨me, ds, st, hq⟩⟩
      · refine ⟨p, ?_, .inl rfl⟩
        rw [Pods.System.after, List.getElem?_set_ne hme, hk]
    | _ => exact ⟨p, hk, .inl rfl⟩

theorem Goes.call_kept (h : s.Goes m t) {k : Nat} {c : Pods.Call} {p : Pods.Point c}
    (hk : s.pods.calls[k]? = some ⟨c, p⟩) : ∃ p' : Pods.Point c, t.pods.calls[k]? = some ⟨c, p'⟩ := by
  obtain ⟨p', hp', -⟩ := h.call_goes hk
  exact ⟨p', hp'⟩

/-! ### Jobs in a run -/

theorem Goes.sound (hg : s.Goes m t) (h : Job.Turn s t n m job job') (hs : job.Sound s) : job'.Sound t := by
  cases h with
  | stay hm hw =>
    refine ⟨hs.leads, fun hk => ?_⟩
    obtain ⟨c, next, p, hl, hp⟩ := hs.waits hk
    obtain ⟨p', hp'⟩ := hg.call_kept hp
    exact ⟨c, next, p', hl, hp'⟩
  | @call job c next hl hc ht =>
    refine ⟨hs.leads, fun hk => ?_⟩
    cases hk
    refine ⟨c, next, .initial c, hl, ?_⟩
    rw [ht, Pods.System.start, List.getElem?_concat_length]
  | take hl hc hr ht => exact hs.replied hl _
  | own hl ho ht => exact hs.replied hl _
  | hear hl hw ht => exact hs.replied hl _

theorem Run.kept {ms : List (Move α)} {log : List Pods.Note} (h : Run s ms log t) (hj : s.jobs[n]? = some job) :
    ∃ job', t.jobs[n]? = some job' ∧ job'.course = job.course := by
  refine Run.induct (P := fun _ _ t => ∃ job', t.jobs[n]? = some job' ∧ job'.course = job.course) ⟨job, hj, rfl⟩ ?_ h
  rintro ms log t m u - ⟨old, hold, hcourse⟩ hg
  obtain ⟨job', hj', hturn⟩ := hg.kept hold
  refine ⟨job', hj', hcourse ▸ ?_⟩
  cases hturn <;> rfl

theorem Run.call_kept {ms : List (Move α)} {log : List Pods.Note} (h : Run s ms log t) {k : Nat} {c : Pods.Call}
    {p : Pods.Point c} (hk : s.pods.calls[k]? = some ⟨c, p⟩) : ∃ p' : Pods.Point c, t.pods.calls[k]? = some ⟨c, p'⟩ := by
  refine Run.induct (P := fun _ _ t => ∃ p' : Pods.Point c, t.pods.calls[k]? = some ⟨c, p'⟩) ⟨p, hk⟩ ?_ h
  rintro ms log t m u - ⟨p', hp'⟩ hg
  exact hg.call_kept hp'

theorem Run.talk_grows {ms : List (Move α)} {log : List Pods.Note} (h : Run s ms log t) (hj : s.jobs[n]? = some job)
    (hj' : t.jobs[n]? = some job') : ∃ rest, job'.talk = job.talk ++ rest := by
  refine Run.induct (P := fun _ _ t => ∀ job', t.jobs[n]? = some job' → ∃ rest, job'.talk = job.talk ++ rest) ?_ ?_ h job'
    hj'
  · intro job' hj'
    cases hj.symm.trans hj'
    exact ⟨[], (List.append_nil _).symm⟩
  · intro ms log t m u hrun ih hg job' hj'
    obtain ⟨old, hold, -⟩ := hrun.kept hj
    obtain ⟨new, hnew, hturn⟩ := hg.kept hold
    cases hj'.symm.trans hnew
    obtain ⟨rest, hrest⟩ := ih old hold
    cases hturn with
    | stay | call => exact ⟨rest, hrest⟩
    | take | own | hear => exact ⟨rest ++ [_], by rw [Job.replied, hrest, List.append_assoc]⟩

theorem Run.sound {first : Shim α} {ms : List (Move α)} {log : List Pods.Note} (h : Run first ms log s)
    (hn : first.jobs.length ≤ n) (hj : s.jobs[n]? = some job) : job.Sound s := by
  refine Run.induct (P := fun _ _ s => ∀ job, s.jobs[n]? = some job → job.Sound s) ?_ ?_ h job hj
  · intro job hj
    exact absurd (List.getElem?_eq_some_iff.mp hj).1 (Nat.not_lt_of_le hn)
  · intro ms log t m u _ ih hg job hj
    obtain ⟨course, -, -, rfl⟩ | ⟨old, hold, hturn⟩ := hg.turn hj
    · exact ⟨.rest, nofun⟩
    · exact hg.sound hturn (ih old hold)

theorem Run.apart {first : Shim α} {ms : List (Move α)} {log : List Pods.Note} (h : Run first ms log s)
    (hfirst : first.jobs = []) {n' k : Nat} (hj : s.jobs[n]? = some job) (hj' : s.jobs[n']? = some job')
    (hc : job.call = some k) (hc' : job'.call = some k) : n = n' := by
  refine Run.induct (P := fun _ _ (s : Shim α) => ∀ n n' k job job', s.jobs[n]? = some job → s.jobs[n']? = some job' →
    job.call = some k → job'.call = some k → n = n') ?_ ?_ h n n' k job job' hj hj' hc hc'
  · intro n n' k job job' hj
    rw [hfirst] at hj
    cases hj
  · intro ms log t m u hrun ih hg n n' k job job' hj hj' hc hc'
    have started {n : Nat} {job : Job α} (hj : u.jobs[n]? = some job) (hc : job.call = some k) :
        m = .proceed n ∧ k = t.pods.calls.length ∨ ∃ old, t.jobs[n]? = some old ∧ old.call = some k := by
      obtain ⟨course, -, -, rfl⟩ | ⟨old, hold, hturn⟩ := hg.turn hj
      · cases hc
      · cases hturn with
        | stay => exact .inr ⟨_, hold, hc⟩
        | call =>
          cases hc
          exact .inl ⟨rfl, rfl⟩
        | take | own | hear => cases hc
    -- A call that is started now is nobody's yet.
    have fresh {n : Nat} {old : Job α} (hold : t.jobs[n]? = some old) : old.call ≠ some t.pods.calls.length := by
      intro hc
      obtain ⟨c, next, p, -, hp⟩ := (hrun.sound (hfirst ▸ Nat.zero_le n) hold).waits hc
      exact absurd (List.getElem?_eq_some_iff.mp hp).1 (Nat.lt_irrefl _)
    obtain ⟨hm, rfl⟩ | ⟨old, hold, hc⟩ := started hj hc
    · obtain ⟨hm', -⟩ | ⟨old', hold', hc'⟩ := started hj' hc'
      · exact Move.proceed.inj (hm.symm.trans hm')
      · exact absurd hc' (fresh hold')
    · obtain ⟨-, rfl⟩ | ⟨old', hold', hc'⟩ := started hj' hc'
      · exact absurd hc (fresh hold)
      · exact ih n n' k old old' hold hold' hc hc'

end Shim
end PodMachines
