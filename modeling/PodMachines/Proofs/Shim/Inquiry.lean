import Mathlib.Data.List.Forall2
import PodMachines.Proofs.Shim.Sight

/-! Inquiries, which go on beside the jobs that have begun them. They are the jobs of another service on the same pods, so
    that what holds of jobs holds of them. Main statements: every inquiry is for one job and one sandbox, a job that was
    told what inquiries came to was told it of inquiries that are over, and any inquiry can be brought to its end. -/

namespace PodMachines
open Service

/-- What an inquiry asks on the way: for an agent, and then the agent. -/
def Service.Act.Inquires (act : Act) : Prop :=
  (∃ id, act = .pods (.agent id)) ∨ ∃ connection request, act = .forward connection request

theorem Service.inquiry_uses (filter : Option Message.ContainerFilter) (id : String) :
    (inquiry filter id).Uses Act.Inquires :=
  forward_uses id _ (.inl ⟨id, rfl⟩) fun connection => .inr ⟨connection, _, rfl⟩

namespace Shim
variable {α : Type} {first s t u : Shim α} {m : Move α} {ms more : List (Move α)} {log since after : List Pods.Note}
  {n k : Nat} {job : Job α} {i : Inquiry}

/-! ### Inquiries stay -/

@[simp] theorem closing_inquiries (s : Shim α) (act : Act) : (s.closing act).inquiries = s.inquiries := by
  cases act <;> rfl

/-- An inquiry after a move was begun by it, or has kept its course, and its end if it was over. -/
theorem Goes.inquiry_before (h : s.Goes m t) (hi : t.inquiries[k]? = some i) :
    (s.inquiries.length ≤ k ∧ ∃ filter id, i = .fresh (inquiry filter id)) ∨
      ∃ i', s.inquiries[k]? = some i' ∧ i.course = i'.course ∧ ∀ result, i'.left = Program.done result → i = i' := by
  have same (ht : t.inquiries = s.inquiries) :
      ∃ i', s.inquiries[k]? = some i' ∧ i.course = i'.course ∧ ∀ result, i'.left = Program.done result → i = i' :=
    ⟨i, ht ▸ hi, rfl, fun _ _ => rfl⟩
  -- Only an inquiry that asks for something goes on.
  have changed {k' : Nat} {old new : Inquiry} {act : Act}
      {next : act.Reply → Course (Except Failure (List Message.Container))} (hold : s.inquiries[k']? = some old)
      (hl : old.left = Program.ask act next) (ht : t.inquiries = s.inquiries.set k' new) (hc : new.course = old.course) :
      ∃ i', s.inquiries[k]? = some i' ∧ i.course = i'.course ∧ ∀ result, i'.left = Program.done result → i = i' := by
    rw [ht] at hi
    obtain ⟨rfl, rfl⟩ | ⟨-, hi⟩ := Pods.of_getElem?_set hi
    · exact ⟨old, hold, hc, fun result hd => nomatch hl.symm.trans hd⟩
    · exact ⟨i, hi, rfl, fun _ _ => rfl⟩
  cases h with
  | receive | call | take | pods => exact .inr (same rfl)
  | hear hj hl hw => exact .inr (same (closing_inquiries s _))
  | own hj hl ho =>
    obtain ht | ⟨filter, ids, -, ht⟩ := own_inquiries ho
    · exact .inr (same ht)
    · have hi' := hi
      simp only [told, ht, List.getElem?_append] at hi'
      split at hi'
      · exact .inr ⟨i, hi', rfl, fun _ _ => rfl⟩
      · rename_i hlt
        obtain ⟨id, -, rfl⟩ := List.mem_map.mp (List.mem_of_getElem? hi')
        exact .inl ⟨Nat.le_of_not_lt hlt, filter, id, rfl⟩
  | seek hi' hl hc | find hi' hl hc hr | learn hi' hl answer => exact .inr (changed hi' hl rfl rfl)

theorem Goes.inquiries_le (h : s.Goes m t) : s.inquiries.length ≤ t.inquiries.length := by
  cases h with
  | own hj hl ho => obtain ht | ⟨filter, ids, -, ht⟩ := own_inquiries ho <;> simp [told, ht]
  | _ => simp [told, calling, seeking, informed]

theorem Goes.inquiry_kept (h : s.Goes m t) (hi : s.inquiries[k]? = some i) : ∃ i', t.inquiries[k]? = some i' ∧
    i'.course = i.course ∧ ∀ result, i.left = Program.done result → i' = i := by
  have hk := (List.getElem?_eq_some_iff.mp hi).1
  have hi' := List.getElem?_eq_getElem (Nat.lt_of_lt_of_le hk h.inquiries_le)
  obtain ⟨hlen, -⟩ | ⟨old, hold, hkept⟩ := h.inquiry_before hi'
  · exact absurd hk (Nat.not_lt_of_le hlen)
  · cases hold.symm.trans hi
    exact ⟨_, hi', hkept⟩

theorem Run.inquiry_kept (h : Run s ms log t) (hi : s.inquiries[k]? = some i) : ∃ i', t.inquiries[k]? = some i' ∧
    i'.course = i.course ∧ ∀ result, i.left = Program.done result → i' = i := by
  refine Run.induct (P := fun _ _ t => ∃ i', t.inquiries[k]? = some i' ∧ i'.course = i.course ∧
    ∀ result, i.left = Program.done result → i' = i) ⟨i, hi, rfl, fun _ _ => rfl⟩ ?_ h
  rintro ms log t m u - ⟨i', hi', hcourse, hdone⟩ hg
  obtain ⟨i'', hi'', hcourse', hdone'⟩ := hg.inquiry_kept hi'
  refine ⟨i'', hi'', hcourse'.trans hcourse, fun result hr => ?_⟩
  obtain rfl := hdone result hr
  exact hdone' result hr

/-! ### Inquiries and jobs -/

/-- What a job was told of its inquiries: those that it has begun are there, and those that it was told about are over. -/
structure Accounted (s : Shim α) (job : Job α) : Prop where
  begun : ∀ {filter ids} {numbers : List Nat}, (⟨.inquire filter ids, numbers⟩ : (act : Act) × act.Reply) ∈ job.talk →
    numbers.Nodup ∧ List.Forall₂ (fun id k => ∃ i, s.inquiries[k]? = some i ∧ i.course = inquiry filter id) ids numbers
  ended : ∀ {numbers : List Nat} {results : List (Except Failure (List Message.Container))},
    (⟨.await numbers, results⟩ : (act : Act) × act.Reply) ∈ job.talk →
      List.Forall₂ (fun k result => ∃ i, s.inquiries[k]? = some i ∧ i.left = Program.done result) numbers results

theorem Accounted.goes (h : s.Accounted job) (hg : s.Goes m t) : t.Accounted job where
  begun hmem := by
    obtain ⟨hnodup, hall⟩ := h.begun hmem
    refine ⟨hnodup, hall.imp fun id k ⟨i, hi, hcourse⟩ => ?_⟩
    obtain ⟨i', hi', hcourse', -⟩ := hg.inquiry_kept hi
    exact ⟨i', hi', hcourse'.trans hcourse⟩
  ended hmem := by
    refine (h.ended hmem).imp fun k result ⟨i, hi, hleft⟩ => ?_
    obtain ⟨i', hi', -, hdone⟩ := hg.inquiry_kept hi
    exact ⟨i', hi', hdone result hleft ▸ hleft⟩

theorem mapM_eq_some {β γ : Type} {f : β → Option γ} {l : List β} {results : List γ} :
    l.mapM f = some results ↔ List.Forall₂ (fun x y => f x = some y) l results := by
  induction l generalizing results with
  | nil => cases results <;> simp [List.mapM_nil, pure]
  | cons x l ih =>
    rw [List.mapM_cons]
    simp only [bind, Option.bind_eq_some_iff, pure, Option.some.injEq, ih]
    constructor
    · rintro ⟨y, hy, rest, hrest, rfl⟩
      exact .cons hy hrest
    · rintro (_ | ⟨hy, hrest⟩)
      exact ⟨_, hy, _, hrest, rfl⟩

theorem exists_mapM_eq_some {β γ : Type} {f : β → Option γ} {l : List β} (h : ∀ x ∈ l, ∃ y, f x = some y) :
    ∃ results, l.mapM f = some results := by
  induction l with
  | nil => exact ⟨[], rfl⟩
  | cons x l ih =>
    obtain ⟨y, hy⟩ := h x List.mem_cons_self
    obtain ⟨results, hresults⟩ := ih fun x hx => h x (List.mem_cons_of_mem _ hx)
    exact ⟨y :: results, mapM_eq_some.mpr (.cons hy (mapM_eq_some.mp hresults))⟩

theorem Accounted.own (h : s.Accounted job) (hg : s.Goes m t) {act : Act} {reply : act.Reply} {next : act.Reply → Course α}
    {v : Shim α} (ho : s.own act = some (reply, v)) (ht : t.inquiries = v.inquiries) :
    t.Accounted (job.replied act reply next) := by
  have hkept := h.goes hg
  refine ⟨fun {filter ids numbers} hmem => ?_, fun {numbers results} hmem => ?_⟩
  · obtain hmem | hmem := List.mem_append.mp hmem
    · exact hkept.begun hmem
    · cases List.mem_singleton.mp hmem
      cases ho
      refine ⟨List.nodup_range', List.forall₂_iff_get.mpr ⟨List.length_range'.symm, fun j hj hj' => ?_⟩⟩
      refine ⟨.fresh (inquiry filter ids[j]), ?_, rfl⟩
      simp [ht, hj]
  · obtain hmem | hmem := List.mem_append.mp hmem
    · exact hkept.ended hmem
    · cases List.mem_singleton.mp hmem
      obtain ⟨rfl, hall⟩ := own_await ho
      refine (mapM_eq_some.mp hall).imp fun k result hk => ?_
      obtain ⟨i, hi, hr⟩ := Option.bind_eq_some_iff.mp hk
      exact ⟨i, ht ▸ hi, Job.result?_eq_some.mp hr⟩

theorem Accounted.other (h : s.Accounted job) (hg : s.Goes m t) {act : Act} {reply : act.Reply}
    {next : act.Reply → Course α} (hi : ∀ filter ids, act ≠ .inquire filter ids) (hw : ∀ inquiries, act ≠ .await inquiries) :
    t.Accounted (job.replied act reply next) := by
  have hkept := h.goes hg
  refine ⟨fun hmem => ?_, fun hmem => ?_⟩
  · obtain hmem | hmem := List.mem_append.mp hmem
    · exact hkept.begun hmem
    · cases List.mem_singleton.mp hmem
      exact absurd rfl (hi _ _)
  · obtain hmem | hmem := List.mem_append.mp hmem
    · exact hkept.ended hmem
    · cases List.mem_singleton.mp hmem
      exact absurd rfl (hw _)

theorem Run.accounted (h : Run first ms log t) (hn : first.jobs.length ≤ n) (hj : t.jobs[n]? = some job) :
    t.Accounted job := by
  refine Run.induct (P := fun _ _ t => ∀ job, t.jobs[n]? = some job → t.Accounted job) ?_ ?_ h job hj
  · intro job hj
    exact absurd (List.getElem?_eq_some_iff.mp hj).1 (Nat.not_lt_of_le hn)
  · intro ms log t m u _ ih hg job hj
    obtain ⟨course, -, -, rfl⟩ | ⟨old, hold, hturn⟩ := hg.turn hj
    · exact ⟨fun h => absurd h List.not_mem_nil, fun h => absurd h List.not_mem_nil⟩
    · have hacc := ih old hold
      cases hturn with
      | stay => exact hacc.goes hg
      | call => exact ⟨(hacc.goes hg).begun, (hacc.goes hg).ended⟩
      | take => exact hacc.other hg nofun nofun
      | own hl ho hu => exact hacc.own hg ho (hu ▸ rfl)
      | @hear _ word act next reply hl hw hu =>
        refine hacc.other hg ?_ ?_
        · rintro filter ids rfl
          cases word <;> cases hw
        · rintro inquiries rfl
          cases word <;> cases hw

theorem Accounted.of_mem (h : s.Accounted job) (hk : k ∈ job.inquiries) :
    ∃ filter id i, s.inquiries[k]? = some i ∧ i.course = inquiry filter id := by
  obtain ⟨⟨act, reply⟩, hmem, hk⟩ := List.mem_flatMap.mp hk
  cases act with
  | inquire filter ids =>
    obtain ⟨-, hall⟩ := h.begun hmem
    obtain ⟨j, hj⟩ := List.getElem?_of_mem hk
    obtain ⟨hlt, rfl⟩ := List.getElem?_eq_some_iff.mp hj
    exact ⟨filter, _, hall.get (hall.length_eq ▸ hlt) hlt⟩
  | _ => cases hk

theorem Run.inquiries_apart (h : Run first ms log t) (hfirst : first.jobs = []) {n' : Nat} {job' : Job α}
    (hj : t.jobs[n]? = some job) (hj' : t.jobs[n']? = some job') (hk : k ∈ job.inquiries) (hk' : k ∈ job'.inquiries) :
    n = n' := by
  refine Run.induct (P := fun _ _ (s : Shim α) => ∀ n n' job job', s.jobs[n]? = some job → s.jobs[n']? = some job' →
    k ∈ job.inquiries → k ∈ job'.inquiries → n = n') ?_ ?_ h n n' job job' hj hj' hk hk'
  · intro n n' job job' hj
    rw [hfirst] at hj
    cases hj
  · intro ms log t m u hrun ih hg n n' job job' hj hj' hk hk'
    -- An inquiry of a job was one before, or is begun by the job's own move.
    have earlier {n : Nat} {job : Job α} (hj : u.jobs[n]? = some job) (hk : k ∈ job.inquiries) :
        (∃ old, t.jobs[n]? = some old ∧ k ∈ old.inquiries) ∨ m = .proceed n ∧ t.inquiries.length ≤ k := by
      obtain ⟨course, -, -, rfl⟩ | ⟨old, hold, hturn⟩ := hg.turn hj
      · cases hk
      · cases hturn with
        | stay | call => exact .inl ⟨_, hold, hk⟩
        | @take _ _ c next result hl hc hr hu =>
          exact .inl ⟨old, hold, @Job.inquiries_replied _ old (.pods c) result next nofun ▸ hk⟩
        | @own _ act next reply v hl ho hu =>
          by_cases hact : ∃ filter ids, act = .inquire filter ids
          · obtain ⟨filter, ids, rfl⟩ := hact
            cases ho
            obtain hk | hk := List.mem_append.mp (Job.inquiries_inquire .. ▸ hk)
            · exact .inl ⟨old, hold, hk⟩
            · exact .inr ⟨rfl, (List.mem_range'_1.mp hk).1⟩
          · exact .inl ⟨old, hold, Job.inquiries_replied reply next (fun filter ids h => hact ⟨filter, ids, h⟩) ▸ hk⟩
        | @hear _ word act next reply hl hw hu =>
          refine .inl ⟨old, hold, Job.inquiries_replied reply next ?_ ▸ hk⟩
          rintro filter ids rfl
          cases word <;> cases hw
    have there {n : Nat} {old : Job α} (hold : t.jobs[n]? = some old) (hk : k ∈ old.inquiries) :
        ¬t.inquiries.length ≤ k := by
      obtain ⟨-, -, i, hi, -⟩ := (hrun.accounted (hfirst ▸ Nat.zero_le n) hold).of_mem hk
      exact Nat.not_le_of_lt (List.getElem?_eq_some_iff.mp hi).1
    obtain ⟨old, hold, hk⟩ | ⟨hm, hle⟩ := earlier hj hk
    · obtain ⟨old', hold', hk'⟩ | ⟨-, hle⟩ := earlier hj' hk'
      · exact ih n n' old old' hold hold' hk hk'
      · exact absurd hle (there hold hk)
    · obtain ⟨old', hold', hk'⟩ | ⟨hm', -⟩ := earlier hj' hk'
      · exact absurd hle (there hold' hk')
      · exact Move.proceed.inj (hm.symm.trans hm')

/-! ### Inquiries as jobs -/

/-- Of what a run passes that goes on with another, the first run passes some, and the second the rest. -/
theorem Run.passes_of_trans (h : Run first ms log t) (h' : Run t more after u)
    (hp : Passes first (ms ++ more) (log ++ after) u s since) :
    (∃ noted, Passes first ms log t s noted ∧ since = noted ++ after) ∨ Passes t more after u s since := by
  obtain ⟨before, rest, earlier, hms, hlog, hbefore, hrest⟩ := hp
  obtain ⟨mid, rfl, rfl⟩ | ⟨mid, rfl, rfl⟩ := List.append_eq_append_iff.mp hms
  · obtain ⟨noted, late, v, rfl, hv, hmid⟩ := hbefore.split
    obtain ⟨rfl, rfl⟩ := hv.unique h
    rw [List.append_assoc, List.append_cancel_left_eq] at hlog
    exact .inr ⟨mid, rest, late, rfl, hlog, hmid, hrest⟩
  · obtain ⟨noted, late, v, rfl, hv, hmore⟩ := hrest.split
    obtain ⟨rfl, rfl⟩ := (hbefore.trans hv).unique h
    obtain ⟨-, rfl⟩ := hmore.unique h'
    exact .inl ⟨noted, ⟨before, mid, earlier, rfl, rfl, hbefore, hv⟩, rfl⟩

/-- A service on the pods of another, whose jobs are inquiries of the other. -/
def Mirrors (v : Shim (Except Failure (List Message.Container))) (s : Shim α) : Prop :=
  v.pods = s.pods ∧ v.jobs <+: s.inquiries

theorem Run.of_receives {s t : Shim α} {ms : List (Move α)} {log : List Pods.Note} (h : Run s ms log t)
    (hms : ∀ m ∈ ms, ∃ course, m = .receive course) : t.pods = s.pods ∧ s.jobs <+: t.jobs ∧ log = [] := by
  induction h with
  | rest => exact ⟨rfl, List.prefix_rfl, rfl⟩
  | move h m hm ih =>
    obtain ⟨hpods, hjobs, rfl⟩ := ih fun m hm => hms m (List.mem_append_left _ hm)
    obtain ⟨course, rfl⟩ := hms m (List.mem_append_right _ (List.mem_singleton_self m))
    cases hm
    exact ⟨hpods, hjobs.trans (List.prefix_append ..), rfl⟩

theorem exists_receives (s : Shim α) (courses : List (Course α)) :
    ∃ t, Run s (courses.map .receive) [] t ∧ t.pods = s.pods ∧ t.jobs = s.jobs ++ courses.map .fresh := by
  induction courses generalizing s with
  | nil => exact ⟨s, .rest, rfl, (List.append_nil _).symm⟩
  | cons course courses ih =>
    obtain ⟨t, ht, hpods, hjobs⟩ := ih { s with jobs := s.jobs ++ [.fresh course] }
    exact ⟨t, (Run.rest.move (.receive course) rfl).trans ht, hpods, hjobs.trans (List.append_assoc ..)⟩

/-- What another service goes through on the same pods while this one makes a move: before the move it mirrors the one
    state, and after it the other. -/
structure Follows (s : Shim α) (notes : List Pods.Note) (t : Shim α) (v w : Shim (Except Failure (List Message.Container))) :
    Prop where
  run : ∃ ms, Run v ms notes w ∧ ∀ {x since}, Passes v ms notes w x since →
    (x.Mirrors s ∧ since = notes) ∨ x.Mirrors t ∧ since = []
  pods : w.pods = t.pods
  jobs : w.jobs = t.inquiries

section
variable {v w : Shim (Except Failure (List Message.Container))} {notes : List Pods.Note}

theorem Follows.rest (hpods : v.pods = t.pods) (hjobs : v.jobs = t.inquiries) : Follows s [] t v v := by
  refine ⟨⟨[], .rest, fun {x since} hp => ?_⟩, hpods, hjobs⟩
  obtain ⟨before, later, earlier, hms, hlog, hbefore, -⟩ := hp
  obtain ⟨rfl, rfl⟩ := List.append_eq_nil_iff.mp hms.symm
  obtain ⟨-, rfl⟩ := List.append_eq_nil_iff.mp hlog.symm
  obtain ⟨rfl, -⟩ := hbefore.unique .rest
  exact .inr ⟨⟨hpods, hjobs ▸ List.prefix_rfl⟩, rfl⟩

theorem Follows.move (hv : v.pods = s.pods) (hj : v.jobs = s.inquiries)
    {m : Move (Except Failure (List Message.Container))} (hm : v.move? m = some w) (hpods : w.pods = t.pods)
    (hjobs : w.jobs = t.inquiries) : Follows s (v.notes m) t v w := by
  have hrun : Run v [m] (v.notes m) w := Run.rest.move m hm
  refine ⟨⟨[m], hrun, fun {x since} hp => ?_⟩, hpods, hjobs⟩
  obtain ⟨before, later, earlier, hms, hlog, hbefore, hlater⟩ := hp
  obtain ⟨rfl, rfl⟩ | ⟨rfl, rfl⟩ := List.singleton_eq_append_iff.mp hms
  · obtain ⟨rfl, rfl⟩ := hbefore.unique .rest
    exact .inl ⟨⟨hv, hj ▸ List.prefix_rfl⟩, hlog.symm⟩
  · obtain ⟨rfl, rfl⟩ := hbefore.unique hrun
    exact .inr ⟨⟨hpods, hjobs ▸ List.prefix_rfl⟩, List.append_right_eq_self.mp hlog.symm⟩

theorem Follows.receive (hv : v.pods = t.pods) (courses : List (Course (Except Failure (List Message.Container))))
    (ht : t.inquiries = v.jobs ++ courses.map .fresh) : ∃ w, Follows s [] t v w := by
  obtain ⟨w, hrun, hpods, hjobs⟩ := exists_receives v courses
  refine ⟨w, ⟨_, hrun, fun {x since} hp => ?_⟩, hpods.trans hv, hjobs.trans ht.symm⟩
  obtain ⟨before, later, earlier, hms, -, -, hlater⟩ := hp
  obtain ⟨hsame, hprefix, rfl⟩ := hlater.of_receives fun m hm => by
    obtain ⟨course, -, rfl⟩ := List.mem_map.mp (hms ▸ List.mem_append_right before hm)
    exact ⟨course, rfl⟩
  exact .inr ⟨⟨hsame.symm.trans (hpods.trans hv), ht ▸ hjobs ▸ hprefix⟩, rfl⟩

/-- Whatever the service does, another goes on whose jobs are the inquiries. -/
theorem Goes.follows (h : s.Goes m t) (hv : v.pods = s.pods) (hj : v.jobs = s.inquiries) :
    ∃ w, Follows s (s.notes m) t v w := by
  have start {c : Pods.Call} (hpods : t.pods = s.pods.start c) (hsame : t.inquiries = s.inquiries) :
      ∃ w, Follows s [] t v w :=
    ⟨{ v with pods := v.pods.start c, closed := v.closed ++ closes (.start c) },
      .move (m := .pods (.start c)) hv hj rfl (hv ▸ hpods.symm) (hj.trans hsame.symm)⟩
  cases h with
  | receive course => exact ⟨v, .rest hv hj⟩
  | call hjob hl hc => exact start rfl rfl
  | take hjob hl hc hr => exact ⟨v, .rest hv hj⟩
  | own hjob hl ho =>
    rename_i n job act next reply u
    rcases own_inquiries ho with hsame | ⟨filter, ids, rfl, -⟩
    · have hjobs : v.jobs = u.inquiries := hj.trans hsame.symm
      rcases own_pods ho with hpods | ⟨-, hpods⟩
      · exact ⟨v, .rest (hv.trans hpods.symm) hjobs⟩
      · refine ⟨{ v with pods := v.pods.enableImageBoot, closed := v.closed ++ closes .enableImageBoot }, ?_⟩
        exact .move (m := .pods .enableImageBoot) hv hj rfl (hv ▸ hpods.symm) hjobs
    · cases ho
      exact Follows.receive hv (ids.map fun id => inquiry filter id) (by simp [told, hj])
  | hear hjob hl hw => exact ⟨v, .rest (by simpa using hv) (by simpa [told] using hj)⟩
  | @seek k i c next hi hl hc =>
    refine ⟨v.calling k i c, .move (m := .proceed k) hv hj ?_ (congrArg (Pods.System.start · c) hv) ?_⟩
    · simp only [move?, hj, hi, Option.bind_some, proceed?, hl, hc]
    · simp only [calling, seeking, hj, hv]
  | @find k number i c next result hi hl hc hr =>
    refine ⟨v.told k i (.pods c) result next, .move (m := .proceed k) hv hj ?_ hv ?_⟩
    · simp only [move?, hj, hi, Option.bind_some, proceed?, hl, hc, hv, hr, Option.map_some]
    · simp only [told, informed, hj]
  | @learn k i connection request next hi hl answer =>
    refine ⟨v.told k i (.forward connection request) (answer request) next,
      .move (m := .hear k (.agent answer)) hv hj ?_ hv ?_⟩
    · simp only [move?, hj, hi, Option.bind_some, hear?, hl]
      rfl
    · simp only [told, informed, hj]
  | @pods pm pods hpm =>
    have hnotes : v.notes (.pods pm) = s.notes (.pods pm) := congrArg (Pods.System.notes · pm) hv
    rw [← hnotes]
    refine ⟨{ v with pods := pods, closed := v.closed ++ closes pm }, .move (m := .pods pm) hv hj ?_ rfl hj⟩
    simp only [move?, hv, hpm, Option.map_some]

end

section
variable {backend : String} {catalog : Option String} {now : Nat} {images : Option Images}

/-- The inquiries of a run are the jobs of a run on the same pods, which passes no states but those that it passes. -/
theorem Run.mirrored (h : Run (.new backend catalog now images) ms log t) :
    ∃ ms' v, Run (.new backend catalog now none) ms' log v ∧ v.pods = t.pods ∧ v.jobs = t.inquiries ∧
      ∀ {x since}, Passes (.new backend catalog now none) ms' log v x since →
        ∃ s, Passes (.new backend catalog now images) ms log t s since ∧ x.Mirrors s := by
  induction h with
  | rest =>
    refine ⟨[], _, .rest, rfl, rfl, fun {x since} hp => ?_⟩
    obtain ⟨before, later, earlier, hms, hlog, hbefore, -⟩ := hp
    obtain ⟨rfl, rfl⟩ := List.append_eq_nil_iff.mp hms.symm
    obtain ⟨-, rfl⟩ := List.append_eq_nil_iff.mp hlog.symm
    obtain ⟨rfl, -⟩ := hbefore.unique .rest
    exact ⟨_, Run.rest.passes, rfl, List.prefix_rfl⟩
  | @move ms log t u h m hm ih =>
    obtain ⟨ms', v, hv, hpods, hjobs, hpasses⟩ := ih
    obtain ⟨w, ⟨more, hmore, hbetween⟩, hpods', hjobs'⟩ := (goes_of_move hm).follows hpods hjobs
    refine ⟨_, w, hv.trans hmore, hpods', hjobs', fun {x since} hp => ?_⟩
    obtain ⟨noted, hbefore, rfl⟩ | hafter := hv.passes_of_trans hmore hp
    · obtain ⟨s, hs, hmirrors⟩ := hpasses hbefore
      exact ⟨s, hs.move hm, hmirrors⟩
    · obtain ⟨hmirrors, rfl⟩ | ⟨hmirrors, rfl⟩ := hbetween hafter
      · exact ⟨t, h.passes.move hm, hmirrors⟩
      · exact ⟨u, (h.move m hm).passes, hmirrors⟩

/-- An inquiry has been led from its course to what is left of it by its talk, and the call that it waits for is the one
    that it asks for. -/
theorem Run.inquiry_sound (h : Run (.new backend catalog now images) ms log t) (hi : t.inquiries[k]? = some i) :
    i.course.Leads i.talk i.left ∧ ∀ {number : Nat}, i.call = some number →
      ∃ (c : Pods.Call) (next : c.Result → Course (Except Failure (List Message.Container))) (p : Pods.Point c),
        i.left = Program.ask (.pods c) next ∧ t.pods.calls[number]? = some ⟨c, p⟩ := by
  obtain ⟨ms', v, hv, hpods, hjobs, -⟩ := h.mirrored
  have hsound := hv.sound (Nat.zero_le k) (hjobs ▸ hi)
  refine ⟨hsound.leads, fun hc => ?_⟩
  obtain ⟨c, next, p, hl, hp⟩ := hsound.waits hc
  exact ⟨c, next, p, hl, hpods ▸ hp⟩

theorem Run.inquiry_course (h : Run (.new backend catalog now images) ms log t) (hi : t.inquiries[k]? = some i) :
    ∃ filter id, i.course = inquiry filter id := by
  refine Run.induct (P := fun _ _ (t : Shim α) => ∀ i, t.inquiries[k]? = some i → ∃ filter id, i.course = inquiry filter id)
    ?_ ?_ h i hi
  · nofun
  · intro ms log t m u _ ih hg i hi
    obtain ⟨-, filter, id, rfl⟩ | ⟨old, hold, hcourse, -⟩ := hg.inquiry_before hi
    · exact ⟨filter, id, rfl⟩
    · exact hcourse ▸ ih old hold

theorem Run.inquiry_left (h : Run (.new backend catalog now images) ms log t) (hi : t.inquiries[k]? = some i) :
    i.left.Uses Act.Inquires := by
  obtain ⟨filter, id, hcourse⟩ := h.inquiry_course hi
  exact (h.inquiry_sound hi).1.uses (hcourse ▸ inquiry_uses filter id)

/-- An inquiry waits for no call but one that looks up an agent. -/
theorem Run.inquiry_call (h : Run (.new backend catalog now images) ms log t) (hi : t.inquiries[k]? = some i) {number : Nat}
    (hc : i.call = some number) :
    ∃ (id : String) (p : Pods.Point (.agent id)), t.pods.calls[number]? = some ⟨.agent id, p⟩ := by
  obtain ⟨c, next, p, hl, hp⟩ := (h.inquiry_sound hi).2 hc
  have huses := h.inquiry_left hi
  rw [hl] at huses
  obtain ⟨id, hact⟩ | ⟨connection, request, hact⟩ := huses.1 <;> cases hact
  exact ⟨id, p, hp⟩

/-! ### Coming to an end -/

/-- A run that only brings inquiries on: jobs stay, and whatever the inquiries ask, the agents answer so. -/
structure BringsOn (agent : Connection → (request : Agent.Request) → Except Failure request.Answer) (s t : Shim α) :
    Prop where
  run : ∃ ms log, Run s ms log t
  jobs : t.jobs = s.jobs
  answers : ∀ {k : Nat} {i' : Inquiry}, t.inquiries[k]? = some i' → ∃ i, s.inquiries[k]? = some i ∧
    ∀ f ∈ forwarded i'.talk, f ∈ forwarded i.talk ∨ f.answer = agent f.connection f.request

section
variable {agent : Connection → (request : Agent.Request) → Except Failure request.Answer}

theorem BringsOn.refl (s : Shim α) : BringsOn agent s s :=
  ⟨⟨[], [], .rest⟩, rfl, fun hi => ⟨_, hi, fun _ => .inl⟩⟩

theorem BringsOn.trans (h : BringsOn agent s t) (h' : BringsOn agent t u) : BringsOn agent s u := by
  obtain ⟨ms, log, hrun⟩ := h.run
  obtain ⟨more, after, hmore⟩ := h'.run
  refine ⟨⟨_, _, hrun.trans hmore⟩, h'.jobs.trans h.jobs, fun hi => ?_⟩
  obtain ⟨i', hi', hanswers'⟩ := h'.answers hi
  obtain ⟨i, hi, hanswers⟩ := h.answers hi'
  exact ⟨i, hi, fun f hf => (hanswers' f hf).elim (hanswers f) .inr⟩

theorem BringsOn.of_set {i' : Inquiry} (hrun : Run s ms log t) (hjobs : t.jobs = s.jobs) (hi : s.inquiries[k]? = some i)
    (ht : t.inquiries = s.inquiries.set k i')
    (hanswers : ∀ f ∈ forwarded i'.talk, f ∈ forwarded i.talk ∨ f.answer = agent f.connection f.request) :
    BringsOn agent s t := by
  refine ⟨⟨ms, log, hrun⟩, hjobs, fun hi' => ?_⟩
  rw [ht] at hi'
  obtain ⟨rfl, rfl⟩ | ⟨-, hi'⟩ := Pods.of_getElem?_set hi'
  · exact ⟨i, hi, hanswers⟩
  · exact ⟨_, hi', fun _ => .inl⟩

/-- An inquiry whose call looks up an agent is told what the call comes to, however far the call is. -/
theorem Run.informed_of_glance (h : Run (.new backend catalog now images) ms log s) {number : Nat} {c : Pods.Call}
    {next : c.Result → Course (Except Failure (List Message.Container))} {p : Pods.Point c} (hi : s.inquiries[k]? = some i)
    (hl : i.left = Program.ask (.pods c) next) (hcall : i.call = some number) (hp : s.pods.calls[number]? = some ⟨c, p⟩)
    (hc : c.Glances) :
    ∃ t result, BringsOn agent s t ∧ t.inquiries[k]? = some (i.replied (.pods c) result next) := by
  obtain ⟨after, v, result, hended, hv⟩ := h.pods.glance_ends hc hp
  obtain ⟨more, closed, hrun⟩ := run_of_pods hended
  have hm : Shim.move? { s with pods := v, closed := closed } (.pursue k) =
      some (informed { s with pods := v, closed := closed } k i (.pods c) result next) := by
    simp only [move?, hi, Option.bind_some, pursue?, hl, hcall, Pods.System.result?_eq_some.mpr hv, Option.map_some]
  refine ⟨_, result, .of_set (hrun.move _ hm) rfl hi rfl fun f hf => ?_,
    List.getElem?_set_self (List.getElem?_eq_some_iff.mp hi).1⟩
  rw [Job.replied, forwarded_append] at hf
  exact .inl ((List.mem_append.mp hf).resolve_right (by simp))

/-- An inquiry can be brought to its end, whatever the agents answer. -/
theorem Run.inquiry_ends (h : Run (.new backend catalog now images) ms log s) (hi : s.inquiries[k]? = some i)
    (agent : Connection → (request : Agent.Request) → Except Failure request.Answer) :
    ∃ t i' result, BringsOn agent s t ∧ t.inquiries[k]? = some i' ∧ i'.left = Program.done result := by
  have huses := h.inquiry_left hi
  have hsturdy : i.left.Sturdy := by
    obtain ⟨filter, id, hcourse⟩ := h.inquiry_course hi
    exact (h.inquiry_sound hi).1.sturdy (hcourse ▸ forward_sturdy id _)
  generalize hleft : i.left = left at huses hsturdy
  induction left generalizing s i ms log with
  | done result => exact ⟨s, i, result, .refl s, hi, hleft⟩
  | crash why => exact hsturdy.elim
  | ask act next ih =>
    have hlen := (List.getElem?_eq_some_iff.mp hi).1
    -- After a reply the rest of the course is as good.
    have goOn {t : Shim α} {reply : act.Reply} (hb : BringsOn agent s t)
        (hi' : t.inquiries[k]? = some (i.replied act reply next)) :
        ∃ t i' result, BringsOn agent s t ∧ t.inquiries[k]? = some i' ∧ i'.left = Program.done result := by
      obtain ⟨more, after, hrun⟩ := hb.run
      obtain ⟨u, i', result, hu, hdone⟩ := ih reply (h.trans hrun) hi' rfl (huses.2 reply) (hsturdy reply)
      exact ⟨u, i', result, hb.trans hu, hdone⟩
    obtain ⟨id, rfl⟩ | ⟨connection, request, rfl⟩ := huses.1
    · have hglances : Pods.Call.Glances (.agent id) := .inl ⟨id, rfl⟩
      cases hcall : i.call with
      | some number =>
        obtain ⟨c, next', p, hl, hp⟩ := (h.inquiry_sound hi).2 hcall
        rw [hleft] at hl
        cases hl
        obtain ⟨t, result, hb, hi'⟩ := h.informed_of_glance hi hleft hcall hp hglances
        exact goOn hb hi'
      | none =>
        have hm : s.move? (.pursue k) = some (s.seeking k i (.agent id)) := by
          simp only [move?, hi, Option.bind_some, pursue?, hleft, hcall]
        have hsought : (s.seeking k i (.agent id)).inquiries[k]? = some { i with call := some s.pods.calls.length } :=
          List.getElem?_set_self hlen
        have hp : (s.seeking k i (.agent id)).pods.calls[s.pods.calls.length]? = some ⟨.agent id, .initial (.agent id)⟩ :=
          List.getElem?_concat_length
        obtain ⟨t, result, hb, hi'⟩ := (h.move _ hm).informed_of_glance hsought hleft rfl hp hglances
        exact goOn (.trans (.of_set (Run.rest.move _ hm) rfl hi rfl fun _ => .inl) hb) hi'
    · have hm : s.move? (.learn k (agent connection)) =
          some (s.informed k i (.forward connection request) (agent connection request) next) := by
        simp only [move?, hi, Option.bind_some, learn?, hleft]
      refine goOn (.of_set (Run.rest.move _ hm) rfl hi rfl fun f hf => ?_) (List.getElem?_set_self hlen)
      rw [Job.replied, forwarded_append] at hf
      obtain hf | hf := List.mem_append.mp hf
      · exact .inl hf
      · rw [forwarded_forward, List.mem_singleton] at hf
        subst hf
        exact .inr rfl

theorem Run.inquiries_end (h : Run (.new backend catalog now images) ms log s) {numbers : List Nat}
    (hnumbers : ∀ k ∈ numbers, ∃ i, s.inquiries[k]? = some i)
    (agent : Connection → (request : Agent.Request) → Except Failure request.Answer) :
    ∃ t, BringsOn agent s t ∧
      ∀ k ∈ numbers, ∃ i result, t.inquiries[k]? = some i ∧ i.left = Program.done result := by
  induction numbers with
  | nil => exact ⟨s, .refl s, nofun⟩
  | cons k numbers ih =>
    obtain ⟨t, hb, hall⟩ := ih fun k hk => hnumbers k (List.mem_cons_of_mem _ hk)
    obtain ⟨more, after, hrun⟩ := hb.run
    obtain ⟨i, hi⟩ := hnumbers k List.mem_cons_self
    obtain ⟨i', hi', -⟩ := hrun.inquiry_kept hi
    obtain ⟨u, i'', result, hb', hi'', hleft⟩ := (h.trans hrun).inquiry_ends hi' agent
    obtain ⟨rest, late, hrun'⟩ := hb'.run
    refine ⟨u, hb.trans hb', List.forall_mem_cons.mpr ⟨⟨i'', result, hi'', hleft⟩, fun k hk => ?_⟩⟩
    obtain ⟨old, result, hold, hdone⟩ := hall k hk
    obtain ⟨new, hnew, -, hsame⟩ := hrun'.inquiry_kept hold
    exact ⟨new, result, hnew, hsame result hdone ▸ hdone⟩

end

end

end Shim
end PodMachines
