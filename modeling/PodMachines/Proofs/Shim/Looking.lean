import PodMachines.Proofs.Pods.Idle
import PodMachines.Proofs.Shim.Alone
import PodMachines.Proofs.Shim.Inquiry

/-! What goes on alone and only looks. Main statement: when a job has come to its end alone that looks, asks agents and has
    inquiries made, and its inquiries have, the store and the machines are as they were. -/

namespace PodMachines
open Service
open Relation (ReflTransGen)

/-! ### Calls that only look -/

namespace Pods

/-- Where a call that only looks can stand. -/
inductive Running.Looking : Running → Prop
  | entering {c : Call} (hc : c.Glances) : Looking ⟨c, .entering .lookup⟩
  | inside {c : Call} (hc : c.Glances) : Looking ⟨c, .inside .lookup⟩
  | finished {c : Call} (hc : c.Glances) (result : c.Result) : Looking ⟨c, .finished result⟩

theorem looking_initial {c : Call} (hc : c.Glances) : Running.Looking ⟨c, .initial c⟩ := by
  have hlooking := Running.Looking.entering hc
  obtain ⟨id, rfl⟩ | ⟨id, rfl⟩ | rfl := hc <;> exact hlooking

/-- A call that looks enters the directory, or leaves it and has come to its end. -/
theorem Running.Looking.advance {c : Call} {p q : Point c} {me : Strand} {s t : Store} (hp : Running.Looking ⟨c, p⟩)
    (h : p.advance me s = some (q, t)) : Running.Looking ⟨c, q⟩ ∧
      ((∃ g, s.guard.enter .lookup = some g ∧ t = { s with guard := g }) ∨
        Running.visits ⟨c, p⟩ = true ∧ t = { s with guard := s.guard.leave }) := by
  cases hp with
  | entering hc =>
    simp only [Point.advance] at h
    obtain ⟨g, hg, heq⟩ := Option.map_eq_some_iff.mp h
    cases heq
    exact ⟨.inside hc, .inl ⟨g, hg, rfl⟩⟩
  | inside hc =>
    simp only [Point.advance] at h
    obtain ⟨result, -, hv⟩ := Point.visit_glance { s with guard := s.guard.leave } hc
    cases hv.symm.trans h
    exact ⟨.finished hc result, .inr ⟨rfl, rfl⟩⟩
  | finished hc result => obtain ⟨id, rfl⟩ | ⟨id, rfl⟩ | rfl := hc <;> cases h

/-- What pods have become when nothing went on since but new calls that only look. A writer in the directory keeps them
    out. -/
structure System.Looked (s t : System) : Prop where
  backend : t.backend = s.backend
  catalog : t.catalog = s.catalog
  store : { t.store with guard := s.store.guard } = s.store
  length : s.calls.length ≤ t.calls.length
  calls : ∀ k, k < s.calls.length → t.calls[k]? = s.calls[k]?
  looking : ∀ {k : Nat} {q : Running}, s.calls.length ≤ k → t.calls[k]? = some q → q.Looking
  writer : s.store.guard = .writer → t.store.guard = .writer ∧
    ∀ {k : Nat} {q : Running}, s.calls.length ≤ k → t.calls[k]? = some q → q.visits = false
  reader : s.store.guard ≠ .writer → t.store.guard ≠ .writer

namespace System.Looked
variable {s t u : System}

theorem refl (s : System) : s.Looked s := by
  have none {k : Nat} {q : Running} (hk : s.calls.length ≤ k) (hq : s.calls[k]? = some q) : False :=
    absurd (List.getElem?_eq_some_iff.mp hq).1 (Nat.not_lt_of_le hk)
  exact ⟨rfl, rfl, rfl, Nat.le_refl _, fun _ _ => rfl, fun hk hq => (none hk hq).elim,
    fun hw => ⟨hw, fun hk hq => (none hk hq).elim⟩, id⟩

theorem start (h : s.Looked t) {c : Call} (hc : c.Glances) : s.Looked (t.start c) := by
  have new {k : Nat} {q : Running} (hq : (t.start c).calls[k]? = some q) :
      t.calls[k]? = some q ∨ q = ⟨c, .initial c⟩ := by
    rw [System.start, List.getElem?_append] at hq
    split at hq
    · exact .inl hq
    · exact .inr (List.mem_singleton.mp (List.mem_of_getElem? hq))
  refine ⟨h.backend, h.catalog, h.store, Nat.le_trans h.length (by simp [System.start]), fun k hk => ?_,
    fun hk hq => ?_, fun hw => ⟨(h.writer hw).1, fun hk hq => ?_⟩, h.reader⟩
  · rw [System.start, List.getElem?_append_left (Nat.lt_of_lt_of_le hk h.length), h.calls k hk]
  · obtain hq | rfl := new hq
    · exact h.looking hk hq
    · exact looking_initial hc
  · obtain hq | rfl := new hq
    · exact (h.writer hw).2 hk hq
    · obtain ⟨id, rfl⟩ | ⟨id, rfl⟩ | rfl := hc <;> rfl

theorem advance (h : s.Looked t) {me : Strand} (hme : s.calls.length ≤ me.call) (hm : t.advance me = some u) :
    s.Looked u := by
  unfold System.advance at hm
  split at hm
  · rename_i running hp
    obtain ⟨c, p⟩ := running
    obtain ⟨⟨q, st⟩, hq, rfl⟩ := Option.map_eq_some_iff.mp hm
    obtain ⟨hafter, hstep⟩ := (h.looking hme hp).advance hq
    have hstore : { st with guard := s.store.guard } = s.store := by
      obtain ⟨g, -, rfl⟩ | ⟨-, rfl⟩ := hstep <;> exact h.store
    refine ⟨h.backend, h.catalog, hstore, (by simpa [place] using h.length), fun k hk => ?_, fun hk hq' => ?_,
      fun hw => ?_, fun hr => ?_⟩
    · rw [place, List.getElem?_set_ne (by omega), h.calls k hk]
    · obtain ⟨-, rfl⟩ | ⟨-, hq'⟩ := of_getElem?_set hq'
      · exact hafter
      · exact h.looking hk hq'
    · -- No new call enters while a writer is there, so none is inside.
      obtain ⟨hwriter, hout⟩ := h.writer hw
      obtain ⟨g, hg, -⟩ | ⟨hin, -⟩ := hstep
      · rw [hwriter] at hg
        cases hg
      · cases hin.symm.trans (hout hme hp)
    · show st.guard ≠ .writer
      obtain ⟨g, hg, rfl⟩ | ⟨-, rfl⟩ := hstep
      · rintro rfl
        cases Guard.writes_of_enter hg rfl
      · exact Guard.leave_ne_writer _
  · cases hm

theorem answer_eq_none (h : s.Looked t) {me : Strand} (hme : s.calls.length ≤ me.call) {request : Request}
    {a : request.Answer} : t.answer me request a = none := by
  unfold System.answer
  cases hp : t.calls[me.call]? with
  | none => exact ite_self _
  | some running =>
    have hnone : running.point.answer t.backend me t.store request a = none := by
      cases h.looking hme hp with
      | entering hc | inside hc | finished hc => exact Point.answer_glance hc
    simp only [hnone, Option.map_none, ite_self]

end System.Looked

theorem System.calls_of_advance {s t : System} {me : Strand} (h : s.advance me = some t) {k : Nat} (hk : me.call ≠ k) :
    t.calls[k]? = s.calls[k]? := by
  unfold advance at h
  split at h
  · obtain ⟨-, -, rfl⟩ := Option.map_eq_some_iff.mp h
    exact List.getElem?_set_ne hk
  · cases h

theorem Guard.eq_of_visitors {g g' : Guard} (h : g.visitors = g'.visitors) (hw : g = .writer ↔ g' = .writer) :
    g = g' := by
  cases g <;> cases g' <;> simp_all [visitors]

/-- When none of the new calls is in the directory any more, the store is as it was. -/
theorem System.Looked.store_eq {backend : String} {catalog : Option String} {now : Nat} {log log' : List Note}
    {s t : System} (h : s.Looked t) (hs : Run (.new backend catalog now) log s) (ht : Run (.new backend catalog now) log' t)
    (hout : ∀ {k : Nat} {q : Running}, s.calls.length ≤ k → t.calls[k]? = some q → q.visits = false) :
    t.store = s.store := by
  have hcalls : t.calls = s.calls ++ t.calls.drop s.calls.length := by
    have htake : t.calls.take s.calls.length = s.calls := List.ext_getElem? fun k => by
      rw [List.getElem?_take]
      split
      · exact h.calls k ‹_›
      · rw [List.getElem?_eq_none (Nat.le_of_not_lt ‹_›)]
    conv_lhs => rw [← List.take_append_drop s.calls.length t.calls, htake]
  have hnone : (t.calls.drop s.calls.length).countP Running.visits = 0 := by
    refine List.countP_eq_zero.mpr fun q hq => ?_
    obtain ⟨k, hk⟩ := List.getElem?_of_mem hq
    rw [List.getElem?_drop] at hk
    simp [hout (Nat.le_add_right ..) hk]
  have hvisitors : t.store.guard.visitors = s.store.guard.visitors := by
    rw [ht.counted.guard, hs.counted.guard, hcalls, List.countP_append, hnone, Nat.add_zero]
  have hguard : t.store.guard = s.store.guard := by
    refine Guard.eq_of_visitors hvisitors ⟨fun hw => ?_, fun hw => (h.writer hw).1⟩
    exact Decidable.byContradiction fun hr => h.reader hr hw
  have hstore := h.store
  rw [← hguard] at hstore
  exact hstore

end Pods

/-! ### Jobs that only look -/

/-- What is asked on the way of a request about containers. -/
def Service.Act.Looks (act : Act) : Prop :=
  Shim.OnlyLooks act ∨ (∃ filter ids, act = .inquire filter ids) ∨ ∃ inquiries, act = .await inquiries

theorem Service.glances_of_looks {c : Pods.Call} (h : Act.Looks (.pods c)) : c.Glances := by
  obtain (⟨c, heq, hc⟩ | ⟨_, _, heq⟩) | ⟨_, _, heq⟩ | ⟨_, heq⟩ := h <;> cases heq
  exact hc

namespace Shim
variable {α V G : Type} {manners : Pods.Manners V G} {s t u v : Shim α} {n k : Nat} {job job' : Job α} {i i' : Inquiry}
  {o : Pods.Outer V G}

/-- The calls that a job and its inquiries wait for are new, and no other new ones are in the directory. -/
structure Owns (s u : Shim α) (job : Job α) : Prop where
  new : ∀ {call : Nat}, u.isFor job call = true → s.pods.calls.length ≤ call
  visits : ∀ {call : Nat} {q : Pods.Running}, s.pods.calls.length ≤ call → u.pods.calls[call]? = some q →
    q.visits = true → u.isFor job call = true

/-- A call is not waited for any more that has come to its end. -/
theorem Owns.drop (h : Owns s u job) (hpods : v.pods = u.pods)
    (hnew : ∀ call, v.isFor job' call = true → u.isFor job call = true)
    (hkept : ∀ call, u.isFor job call = true → v.isFor job' call = true ∨
      ∃ c result, u.pods.result? call c = some result) : Owns s v job' := by
  refine ⟨fun hc => h.new (hnew _ hc), fun hlen hq hin => ?_⟩
  rw [hpods] at hq
  refine (hkept _ (h.visits hlen hq hin)).resolve_right ?_
  rintro ⟨c, result, hr⟩
  cases hq.symm.trans (Pods.System.result?_eq_some.mp hr)
  cases hin

theorem Owns.start (h : Owns s u job) (hlen : s.pods.calls.length ≤ u.pods.calls.length) {c : Pods.Call}
    (hpods : v.pods = u.pods.start c)
    (hfor : ∀ call, v.isFor job' call = true ↔ u.isFor job call = true ∨ call = u.pods.calls.length) : Owns s v job' := by
  refine ⟨fun hc => ?_, fun hnew hq hin => (hfor _).mpr ?_⟩
  · obtain hc | rfl := (hfor _).mp hc
    · exact h.new hc
    · exact hlen
  · rw [hpods, Pods.System.start, List.getElem?_append] at hq
    split at hq
    · exact .inl (h.visits hnew hq hin)
    · have hlt := (List.getElem?_eq_some_iff.mp hq).1
      simp only [List.length_singleton] at hlt
      exact .inr (by omega)

theorem isFor_set (hk : k ∈ job.inquiries) (hi : u.inquiries[k]? = some i) (hv : v.inquiries = u.inquiries.set k i')
    {call : Nat} : v.isFor job call = true ↔ i'.call = some call ∨ job.call = some call ∨
      ∃ k' ∈ job.inquiries, k' ≠ k ∧ ∃ i, u.inquiries[k']? = some i ∧ i.call = some call := by
  have hself : v.inquiries[k]? = some i' := hv ▸ List.getElem?_set_self (List.getElem?_eq_some_iff.mp hi).1
  have hother {k' : Nat} (hne : k' ≠ k) : v.inquiries[k']? = u.inquiries[k']? := hv ▸ List.getElem?_set_ne (Ne.symm hne)
  rw [isFor_eq_true]
  constructor
  · rintro (hc | ⟨k', hk', j, hj, hc⟩)
    · exact .inr (.inl hc)
    · by_cases hne : k' = k
      · subst hne
        cases hj.symm.trans hself
        exact .inl hc
      · exact .inr (.inr ⟨k', hk', hne, j, hother hne ▸ hj, hc⟩)
  · rintro (hc | hc | ⟨k', hk', hne, j, hj, hc⟩)
    · exact .inr ⟨k, hk, i', hself, hc⟩
    · exact .inl hc
    · exact .inr ⟨k', hk', j, hother hne ▸ hj, hc⟩

theorem isFor_self (hk : k ∈ job.inquiries) (hi : u.inquiries[k]? = some i) {call : Nat} :
    u.isFor job call = true ↔ i.call = some call ∨ job.call = some call ∨
      ∃ k' ∈ job.inquiries, k' ≠ k ∧ ∃ i, u.inquiries[k']? = some i ∧ i.call = some call :=
  isFor_set hk hi (Pods.set_self hi)

theorem Owns.seek (h : Owns s u job) (hlen : s.pods.calls.length ≤ u.pods.calls.length) (hk : k ∈ job.inquiries)
    (hi : u.inquiries[k]? = some i) (hc : i.call = none) (c : Pods.Call) : Owns s (u.seeking k i c) job := by
  refine h.start hlen rfl fun call => ?_
  rw [isFor_set hk hi rfl, isFor_self hk hi, hc]
  simp only [Option.some.injEq, reduceCtorEq, false_or]
  exact or_comm.trans (or_congr_right eq_comm)

/-- An inquiry waits for a call no more that has come to its end. -/
theorem Owns.inform (h : Owns s u job) (hk : k ∈ job.inquiries) (hi : u.inquiries[k]? = some i)
    (hc : ∀ call, i.call = some call → ∃ c result, u.pods.result? call c = some result) (act : Act) (reply : act.Reply)
    (next : act.Reply → Course (Except Failure (List Message.Container))) :
    Owns s (u.informed k i act reply next) job := by
  refine h.drop rfl (fun call hfor => ?_) fun call hfor => ?_
  · obtain hnone | hfor := (isFor_set hk hi rfl).mp hfor
    · cases hnone
    · exact (isFor_self hk hi).mpr (.inr hfor)
  · obtain hcall | hfor := (isFor_self hk hi).mp hfor
    · exact .inr (hc call hcall)
    · exact .inl ((isFor_set hk hi rfl).mpr (.inr hfor))

/-- A job waits for its call no more when it is told something. Unless it begins inquiries, it has the same as before. -/
theorem Owns.replied (h : Owns s u job) (hc : ∀ call, job.call = some call → ∃ c result, u.pods.result? call c = some result)
    (act : Act) (hact : ∀ filter ids, act ≠ .inquire filter ids) (reply : act.Reply) (next : act.Reply → Course α)
    (hpods : v.pods = u.pods) (hinquiries : v.inquiries = u.inquiries) :
    Owns s (v.told n job act reply next) (job.replied act reply next) := by
  have hsame : (job.replied act reply next).inquiries = job.inquiries := Job.inquiries_replied reply next hact
  have hkept : (v.told n job act reply next).inquiries = u.inquiries := hinquiries
  refine h.drop hpods (fun call hfor => ?_) fun call hfor => ?_
  · obtain hnone | hfor := isFor_eq_true.mp hfor
    · cases hnone
    · rw [hsame, hkept] at hfor
      exact isFor_eq_true.mpr (.inr hfor)
  · obtain hcall | hfor := isFor_eq_true.mp hfor
    · exact .inr (hc call hcall)
    · rw [← hsame, ← hkept] at hfor
      exact .inl (isFor_eq_true.mpr (.inr hfor))

theorem Owns.inquire (h : Owns s u job) (hc : job.call = none) {filter : Option Message.ContainerFilter} {ids : List String}
    {numbers : List Nat} (ho : u.own (.inquire filter ids) = some (numbers, v)) (next : List Nat → Course α) :
    Owns s (v.told n job (.inquire filter ids) numbers next) (job.replied (.inquire filter ids) numbers next) := by
  cases ho
  refine h.drop rfl (fun call hfor => ?_) fun call hfor => ?_
  · obtain hnone | ⟨k, hk, i, hi, hcall⟩ := isFor_eq_true.mp hfor
    · cases hnone
    · rw [Job.inquiries_inquire] at hk
      simp only [told, List.getElem?_append] at hi
      split at hi
      · have hlt : k < u.inquiries.length := ‹_›
        refine isFor_eq_true.mpr (.inr ⟨k, (List.mem_append.mp hk).resolve_right fun hk => ?_, i, hi, hcall⟩)
        exact absurd hlt (Nat.not_lt_of_le (List.mem_range'_1.mp hk).1)
      · obtain ⟨id, -, rfl⟩ := List.mem_map.mp (List.mem_of_getElem? hi)
        cases hcall
  · obtain hcall | ⟨k, hk, i, hi, hcall⟩ := isFor_eq_true.mp hfor
    · cases hc.symm.trans hcall
    · refine .inl (isFor_eq_true.mpr (.inr ⟨k, ?_, i, ?_, hcall⟩))
      · rw [Job.inquiries_inquire]
        exact List.mem_append_left _ hk
      · exact (List.getElem?_append_left (List.getElem?_eq_some_iff.mp hi).1).trans hi

/-- What goes on alone for a job that only looks leaves this as it was. -/
structure Spared (s : Shim α) (o : Pods.Outer V G) (n : Nat) (x : Shim α × Pods.Outer V G) : Prop where
  pods : s.pods.Looked x.1.pods
  images : x.1.images = s.images
  machine : x.2.machine = o.machine
  job : ∀ {job : Job α}, x.1.jobs[n]? = some job → job.left.Uses Act.Looks ∧ Owns s x.1 job

section
variable {backend : String} {catalog : Option String} {now : Nat} {images : Option Images} {ms : List (Move α)}
  {log : List Pods.Note} {p : Pods.Outer V G}

theorem Spared.told (h : Spared s o n (u, p)) (hj : u.jobs[n]? = some job) {act : Act} {next : act.Reply → Course α}
    (hl : job.left = Program.ask act next) (reply : act.Reply) (hv : v.jobs = u.jobs) (hpods : v.pods = u.pods)
    (himages : v.images = u.images) (howns : Owns s (v.told n job act reply next) (job.replied act reply next)) :
    Spared s o n (v.told n job act reply next, p) := by
  have huses := (h.job hj).1
  rw [hl] at huses
  refine ⟨hpods ▸ h.pods, himages.trans h.images, h.machine, fun {new} hnew => ?_⟩
  have hself : (v.told n job act reply next).jobs[n]? = some (job.replied act reply next) :=
    List.getElem?_set_self (hv ▸ (List.getElem?_eq_some_iff.mp hj).1)
  cases hnew.symm.trans hself
  exact ⟨huses.2 reply, howns⟩

theorem Spared.inquiry (h : Spared s o n (u, p)) (hjobs : v.jobs = u.jobs) (hpods : s.pods.Looked v.pods)
    (himages : v.images = u.images) (howns : ∀ job, u.jobs[n]? = some job → Owns s u job → Owns s v job) :
    Spared s o n (v, p) := by
  refine ⟨hpods, himages.trans h.images, h.machine, fun {job} hj => ?_⟩
  have hj : u.jobs[n]? = some job := hjobs ▸ hj
  exact ⟨(h.job hj).1, howns job hj (h.job hj).2⟩

theorem Spared.calling (h : Spared s o n (u, p)) (hj : u.jobs[n]? = some job) {c : Pods.Call} {next : c.Result → Course α}
    (hl : job.left = Program.ask (.pods c) next) (hc : job.call = none) : Spared s o n (u.calling n job c, p) := by
  obtain ⟨huses, howns⟩ := h.job hj
  rw [hl] at huses
  have hself : (u.calling n job c).jobs[n]? = some { job with call := some u.pods.calls.length } :=
    List.getElem?_set_self (List.getElem?_eq_some_iff.mp hj).1
  refine ⟨h.pods.start (glances_of_looks huses.1), h.images, h.machine, fun {new} hnew => ?_⟩
  cases hnew.symm.trans hself
  refine ⟨hl ▸ huses, howns.start h.pods.length rfl fun call => ?_⟩
  rw [isFor_eq_true, isFor_eq_true, hc]
  simp only [Option.some.injEq, reduceCtorEq, false_or]
  exact or_comm.trans (or_congr_right eq_comm)

/-- The service itself replies to the job: it begins inquiries or reads what they came to. -/
theorem Spared.own (h : Spared s o n (u, p)) (hj : u.jobs[n]? = some job) (hc : job.call = none) {act : Act}
    {next : act.Reply → Course α} {reply : act.Reply} (hl : job.left = Program.ask act next)
    (ho : u.own act = some (reply, v)) : Spared s o n (v.told n job act reply next, p) := by
  obtain ⟨huses, howns⟩ := h.job hj
  rw [hl] at huses
  obtain (⟨c, rfl, -⟩ | ⟨_, _, rfl⟩) | ⟨filter, ids, rfl⟩ | ⟨inquiries, rfl⟩ := huses.1
  · cases ho
  · cases ho
  · have howns := howns.inquire (n := n) hc ho next
    cases ho
    exact h.told hj hl _ rfl rfl rfl howns
  · obtain ⟨rfl, -⟩ := own_await ho
    refine h.told hj hl reply rfl rfl rfl
      (howns.replied (fun call hcall => ?_) (.await inquiries) (by simp) reply next rfl rfl)
    cases hc.symm.trans hcall

theorem Spared.proceed (h : Spared s o n (u, p)) (hrun : Run (.new backend catalog now images) ms log u)
    (hm : u.move? (.proceed n) = some v) : Spared s o n (v, p) := by
  cases goes_of_move hm with
  | call hj hl hc => exact h.calling hj hl hc
  | @take _ number job c next result hj hl hc hr =>
    refine h.told hj hl result rfl rfl rfl
      ((h.job hj).2.replied (fun call hcall => ?_) (.pods c) (by simp) result next rfl rfl)
    cases hc.symm.trans hcall
    exact ⟨c, result, hr⟩
  | own hj hl ho =>
    refine h.own hj ((hrun.sound (Nat.zero_le n) hj).call_eq_none fun c next hleft => ?_) hl ho
    cases hl.symm.trans hleft
    cases ho

theorem Spared.pursue (h : Spared s o n (u, p)) (hrun : Run (.new backend catalog now images) ms log u)
    (hj : u.jobs[n]? = some job) (hk : k ∈ job.inquiries) (hm : u.move? (.pursue k) = some v) : Spared s o n (v, p) := by
  cases goes_of_move hm with
  | @seek _ i c next hi hl hc =>
    have huses := hrun.inquiry_left hi
    rw [hl] at huses
    have hglances : c.Glances := by
      obtain ⟨id, heq⟩ | ⟨connection, request, heq⟩ := huses.1 <;> cases heq
      exact .inl ⟨id, rfl⟩
    refine h.inquiry rfl (h.pods.start hglances) rfl fun job' hj' howns => ?_
    cases hj.symm.trans hj'
    exact howns.seek h.pods.length hk hi hc c
  | @find _ number i c next result hi hl hc hr =>
    refine h.inquiry rfl h.pods rfl fun job' hj' howns => ?_
    cases hj.symm.trans hj'
    refine howns.inform hk hi (fun call hcall => ?_) (.pods c) result next
    cases hc.symm.trans hcall
    exact ⟨c, result, hr⟩

theorem Stride.spared {x y : Shim α × Pods.Outer V G} (hg : Stride manners n x y)
    (hrun : Run (.new backend catalog now images) ms log x.1) (h : Spared s o n x) : Spared s o n y := by
  cases hg with
  | proceed hm => exact h.proceed hrun hm
  | @hear u t p job connection request next hj hl hm =>
    simp only [move?, hj, Option.bind_some, hear?, hl] at hm
    cases hm
    have hnone : job.call = none := (hrun.sound (Nat.zero_le n) hj).call_eq_none fun c next' hleft => by
      cases hl.symm.trans hleft
    have hwaits (call : Nat) (hcall : job.call = some call) : ∃ c result, u.pods.result? call c = some result := by
      cases hnone.symm.trans hcall
    have hspared := h.told hj hl _ rfl rfl rfl ((h.job hj).2.replied hwaits (.forward connection request) (by simp)
      (manners.serve request (p.agent connection)).1 next rfl rfl)
    exact ⟨hspared.pods, hspared.images, hspared.machine, hspared.job⟩
  | pursue hj hk hm => exact h.pursue hrun hj hk hm
  | @learn u t p job k i connection request next hj hk hi hl hm =>
    simp only [move?, hi, Option.bind_some, learn?, hl] at hm
    cases hm
    have hspared := h.inquiry (v := u.informed k i (.forward connection request)
      (manners.serve request (p.agent connection)).1 next) rfl h.pods rfl fun job' hj' howns => by
        cases hj.symm.trans hj'
        refine howns.inform hk hi (fun call hcall => ?_) (.forward connection request) _ next
        obtain ⟨c, next', -, hl', -⟩ := (hrun.inquiry_sound hi).2 hcall
        cases hl.symm.trans hl'
    exact ⟨hspared.pods, hspared.images, hspared.machine, hspared.job⟩
  | @advance u t p job me hj hc hm =>
    obtain ⟨pods, hpods, rfl⟩ := Option.map_eq_some_iff.mp hm
    obtain ⟨huses, howns⟩ := h.job hj
    refine ⟨h.pods.advance (howns.new hc) hpods, h.images, h.machine, fun {job'} hj' => ?_⟩
    cases hj.symm.trans hj'
    refine ⟨huses, fun hfor => howns.new hfor, fun {call q} hlen hq hin => ?_⟩
    by_cases hme : me.call = call
    · exact hme ▸ hc
    · exact howns.visits hlen ((Pods.System.calls_of_advance hpods hme).symm.trans hq) hin
  | @answer u t p p' job me request a hj hc ha hm =>
    obtain ⟨pods, hpods, rfl⟩ := Option.map_eq_some_iff.mp hm
    cases (h.pods.answer_eq_none ((h.job hj).2.new hc)).symm.trans hpods

/-- A request that looks, asks agents and has inquiries made leaves store and machines as they were, when its inquiries
    are over. -/
theorem Executes.spares (h : Run (.new backend catalog now images) ms log s) {course : Course α} {a : α}
    (hx : Executes manners s o course a t p) (huses : course.Uses Act.Looks)
    (hover : ∀ job, t.jobs[s.jobs.length]? = some job → ∀ k ∈ job.inquiries, ∃ i result,
      t.inquiries[k]? = some i ∧ i.left = Program.done result) :
    t.pods.store = s.pods.store ∧ t.setting = s.setting ∧ p.machine = o.machine := by
  have hfirst : Spared s o s.jobs.length (({ s with jobs := s.jobs ++ [.fresh course] } : Shim α), o) := by
    refine ⟨.refl s.pods, rfl, rfl, fun {job} hj => ?_⟩
    cases hj.symm.trans received_getElem?
    refine ⟨huses, fun hfor => ?_, fun hlen hq => absurd (List.getElem?_eq_some_iff.mp hq).1 (Nat.not_lt_of_le hlen)⟩
    cases (isFor_of_nil rfl).mp hfor
  have hsteps {y : Shim α × Pods.Outer V G} (hy : ReflTransGen (Stride manners s.jobs.length)
      (({ s with jobs := s.jobs ++ [.fresh course] } : Shim α), o) y) :
      Spared s o s.jobs.length y ∧ ∃ ms log, Run (.new backend catalog now images) ms log y.1 := by
    induction hy with
    | refl => exact ⟨hfirst, _, _, h.move (.receive course) rfl⟩
    | tail _ hstep ih =>
      obtain ⟨hspared, ms, log, hrun⟩ := ih
      obtain ⟨m, noted, hmore⟩ := hstep.run
      exact ⟨hstep.spared hrun hspared, _, _, hrun.trans hmore⟩
  obtain ⟨hall, job, hj, hdone⟩ := hx
  obtain ⟨hspared, ms', log', hrun⟩ := hsteps hall
  -- Neither the job nor an inquiry of it waits for a call any more.
  have hnone {call : Nat} : t.isFor job call ≠ true := fun hfor => by
    obtain hcall | ⟨k, hk, i, hi, hcall⟩ := isFor_eq_true.mp hfor
    · have hnone : job.call = none := (hrun.sound (Nat.zero_le _) hj).call_eq_none fun c next hleft => by
        cases hdone.symm.trans hleft
      cases hnone.symm.trans hcall
    · obtain ⟨i', result, hi', hleft⟩ := hover job hj k hk
      cases hi.symm.trans hi'
      obtain ⟨c, next, -, hl, -⟩ := (hrun.inquiry_sound hi).2 hcall
      cases hleft.symm.trans hl
  refine ⟨hspared.pods.store_eq h.pods hrun.pods fun {k q} hlen hq => ?_, ?_, hspared.machine⟩
  · exact Bool.eq_false_iff.mpr fun hin => hnone ((hspared.job hj).2.visits hlen hq hin)
  · rw [setting, setting, hspared.pods.backend, hspared.pods.catalog, hspared.images]

end

end Shim
end PodMachines
