import PodMachines.Proofs.Session.Work

/-! Tasks of a session. A request that is under way in a session is a job of the service with those who work for it, and
    its turn is a run. Main statement: the run leaves the tasks of others as they are. -/

namespace PodMachines
open Service

namespace Rig
variable {α : Type} {s t u : Rig α} {n k : Nat}

/-- Who works for a job: its search, and the strands of its call and of those that are yet to start. -/
def Belongs (s : Rig α) (n : Nat) : Pods.Strand ⊕ Nat → Prop
  | .inl me => s.shim.pods.calls.length ≤ me.call ∨ ∃ job, s.shim.jobs[n]? = some job ∧ job.call = some me.call
  | .inr k => k = n

/-- What goes on for a job leaves the others alone. -/
structure Leaves (n : Nat) (s t : Rig α) : Prop where
  jobs : ∀ k, k ≠ n → t.shim.jobs[k]? = s.shim.jobs[k]?
  spares : Spares (s.Belongs n) s t
  belongs : ∀ who, t.Belongs n who → s.Belongs n who

theorem Leaves.trans (h : Leaves n s t) (h' : Leaves n t u) : Leaves n s u :=
  ⟨fun k hk => (h'.jobs k hk).trans (h.jobs k hk), h.spares.trans (h'.spares.mono h.belongs),
    fun who hw => h.belongs who (h'.belongs who hw)⟩

theorem Run.calls_le {log : List Pods.Note} (h : Run s log t) :
    s.shim.pods.calls.length ≤ t.shim.pods.calls.length := by
  refine Nat.le_of_not_lt fun hlt => ?_
  obtain ⟨p', hp'⟩ := h.call_kept (List.getElem?_eq_getElem hlt)
  exact absurd (List.getElem?_eq_some_iff.mp hp').1 (Nat.lt_irrefl _)

theorem Leaves.of_work {log : List Pods.Note} (h : Run s log t) (hjobs : t.shim.jobs = s.shim.jobs)
    (hspares : Spares (s.Belongs n) s t) : Leaves n s t := by
  refine ⟨fun k _ => by rw [hjobs], hspares, fun who hw => ?_⟩
  cases who with
  | inr k => exact hw
  | inl me =>
    obtain hlen | hjob := hw
    · exact .inl (Nat.le_trans h.calls_le hlen)
    · exact .inr (hjobs ▸ hjob)

/-- A run that only changes the job, and gets work done for it. -/
theorem Leaves.of_job {log : List Pods.Note} (h : Run s log t) {job : Job α}
    (hjobs : t.shim.jobs = s.shim.jobs.set n job) (hcall : ∀ k, job.call = some k → s.shim.pods.calls.length ≤ k)
    (hspares : Spares (s.Belongs n) s t) :
    Leaves n s t := by
  refine ⟨fun k hk => by rw [hjobs, List.getElem?_set_ne (Ne.symm hk)], hspares, fun who hw => ?_⟩
  cases who with
  | inr k => exact hw
  | inl me =>
    obtain hlen | ⟨new, hnew, hc⟩ := hw
    · exact .inl (Nat.le_trans h.calls_le hlen)
    · rw [hjobs] at hnew
      obtain ⟨-, rfl⟩ | ⟨hne, -⟩ := Pods.of_getElem?_set hnew
      · exact .inl (hcall _ hc)
      · exact absurd rfl hne

/-! ### Where a job stands -/

/-- A job stands at what is left of its course, and waits for nothing. -/
def Stands (s : Rig α) (n : Nat) (left : Course α) : Prop :=
  (∃ job, s.shim.jobs[n]? = some job ∧ job.left = left ∧ job.call = none) ∧ s.busy (.inr n) = false

/-- A job waits for a call. -/
def Calls (s : Rig α) (n number : Nat) (c : Pods.Call) (next : c.Result → Course α) : Prop :=
  (∃ job, s.shim.jobs[n]? = some job ∧ job.left = Program.ask (.pods c) next ∧ job.call = some number) ∧
    s.busy (.inr n) = false

/-- A job waits for images, which are looked for with so much left to do. -/
def Finds (s : Rig α) (n : Nat) (next : Except Failure (List Image.Record) → Course α)
    (left : Work (Except Failure (List Image.Record))) : Prop :=
  ∃ reference, (∃ job, s.shim.jobs[n]? = some job ∧ job.left = Program.ask (.find reference) next ∧ job.call = none) ∧
    s.Holds (.search n reference) left

section
variable {left : Course α} {number : Nat} {c : Pods.Call} {next : c.Result → Course α}

theorem Stands.leaves (h : s.Stands n left) (hl : Leaves k s t) (hk : n ≠ k) : t.Stands n left := by
  obtain ⟨⟨job, hj, hleft⟩, hidle⟩ := h
  exact ⟨⟨job, (hl.jobs n hk).trans hj, hleft⟩, hl.spares.idle _ hk hidle⟩

theorem Calls.leaves (h : s.Calls n number c next) (hl : Leaves k s t) (hk : n ≠ k) : t.Calls n number c next := by
  obtain ⟨⟨job, hj, hleft⟩, hidle⟩ := h
  exact ⟨⟨job, (hl.jobs n hk).trans hj, hleft⟩, hl.spares.idle _ hk hidle⟩

theorem Finds.leaves {next : Except Failure (List Image.Record) → Course α}
    {left : Work (Except Failure (List Image.Record))} (h : s.Finds n next left) (hl : Leaves k s t) (hk : n ≠ k) :
    t.Finds n next left := by
  obtain ⟨reference, ⟨job, hj, hleft⟩, hh⟩ := h
  exact ⟨reference, ⟨job, (hl.jobs n hk).trans hj, hleft⟩, hl.spares.holds (.search n reference) left hk hh⟩

theorem Calls.stranger (h : s.Calls n number c next) (hs : s.Reached) (hk : n ≠ k) (part : Nat) :
    ¬s.Belongs k (.inl ⟨number, part⟩) := by
  obtain ⟨⟨job, hj, -, hc⟩, -⟩ := h
  obtain ⟨backend, connector, now, images, log, hrun⟩ := hs
  obtain ⟨ms, hms⟩ := hrun.shim
  rintro (hlen | ⟨other, hother, hcall⟩)
  · obtain ⟨_, _, p, -, hp⟩ := (hms.sound (Nat.zero_le n) hj).waits hc
    exact absurd (List.getElem?_eq_some_iff.mp hp).1 (Nat.not_lt_of_le hlen)
  · exact hk (hms.apart rfl hj hother hc hcall)

end
end Rig

namespace Session
variable {α : Type} {x y z : Session} {s t u : Rig α} {n k : Nat}

/-- What was done for a job. -/
structure Serves (n : Nat) (s : Rig α) (y : Session) (t : Rig α) : Prop where
  run : ∃ log, Rig.Run s log t
  models : y.Models t
  leaves : Rig.Leaves n s t

theorem Serves.trans (h : Serves n s y t) (h' : Serves n t z u) : Serves n s z u := by
  obtain ⟨log, hrun⟩ := h.run
  obtain ⟨more, hmore⟩ := h'.run
  exact ⟨⟨_, hrun.trans hmore⟩, h'.models, h.leaves.trans h'.leaves⟩

theorem Serves.stay (hm : x.Models s) : Serves n s x s :=
  ⟨⟨[], .rest⟩, hm, fun _ _ => rfl, .of_eq rfl, fun _ hw => hw⟩

theorem Models.shim_run (hm : x.Models s) {m : Shim.Move α} {shim : Shim α} (hf : Rig.free m = true)
    (h : s.shim.move? m = some shim) (hbackend : y.backend = x.backend) (hconnector : y.connector = x.connector)
    (hpods : shim.pods = y.pods) (himages : shim.images = y.images)
    (hinquiries : shim.inquiries.map Job.result? = y.inquiries) :
    ∃ log, Rig.Run s log { s with shim := shim } ∧ y.Models { s with shim := shim } := by
  have hmove : s.move? (.shim m) = some { s with shim := shim } := by
    rw [Rig.move?, hf, if_pos rfl, h]
    rfl
  have hrun := Rig.Run.rest.move _ hmove
  exact ⟨_, hrun, hm.backend.trans hbackend.symm, hm.connector.trans hconnector.symm, hpods, himages, hinquiries,
    hm.reached.run hrun⟩

theorem Models.unbegun (hm : x.Models s) (part : Nat) : s.busy (.inl ⟨x.pods.calls.length, part⟩) = false := by
  refine Rig.busy_eq_false.mpr fun e he hopen hgiver => ?_
  obtain ⟨i, hi⟩ := List.getElem?_of_mem he
  cases horder : e.order with
  | search k reference =>
    rw [horder] at hgiver
    cases hgiver
  | strand me request =>
    rw [horder] at hgiver
    cases hgiver
    obtain ⟨hr, -⟩ := hm.reached.tended.asks hi hopen horder
    obtain ⟨running, hp, -⟩ := Option.bind_eq_some_iff.mp hr
    have hlt := (List.getElem?_eq_some_iff.mp hp).1
    rw [hm.pods] at hlt
    exact absurd hlt (Nat.lt_irrefl _)

section
variable {c : Pods.Call} {next : c.Result → Course α}

theorem Models.call_run (hm : x.Models s) (h : s.Stands n (Program.ask (.pods c) next)) :
    ∃ t, Serves n s (x.startCall c).2 t ∧ t.Calls n (x.startCall c).1 c next ∧
      ∀ q, Calling.Sits ⟨(x.startCall c).1, c, [], none⟩ t q := by
  obtain ⟨⟨job, hj, hleft, hcall⟩, hidle⟩ := h
  have hmove : s.shim.move? (.proceed n) = some (s.shim.calling n job c) := by
    rw [Shim.move?, hj]
    show s.shim.proceed? n job = _
    rw [Shim.proceed?, hleft]
    dsimp only
    rw [hcall]
  obtain ⟨log, hrun, hmt⟩ := hm.shim_run (y := (x.startCall c).2) rfl hmove rfl rfl
    (congrArg (Pods.System.start · c) hm.pods) hm.images hm.inquiries
  refine ⟨_, ⟨⟨log, hrun⟩, hmt, ?_⟩, ⟨⟨{ job with call := some s.shim.pods.calls.length }, ?_, hleft, ?_⟩, hidle⟩,
    fun q => hm.unbegun q⟩
  · refine .of_job hrun rfl (fun k hk => ?_) (.of_eq rfl)
    cases hk
    exact Nat.le_refl _
  · exact List.getElem?_set_self (List.getElem?_eq_some_iff.mp hj).1
  · exact congrArg (fun pods : Pods.System => some pods.calls.length) hm.pods

end

section
variable {act : Act} {next : act.Reply → Course α} {reply : act.Reply}

theorem Models.told_run (hm : x.Models s) {m : Shim.Move α} {shim : Shim α} {job : Job α} (hf : Rig.free m = true)
    (hmove : s.shim.move? m = some (shim.told n job act reply next)) (hj : s.shim.jobs[n]? = some job)
    (hidle : s.busy (.inr n) = false) (hkept : shim.jobs = s.shim.jobs) (hbackend : y.backend = x.backend)
    (hconnector : y.connector = x.connector) (hpods : shim.pods = y.pods) (himages : shim.images = y.images)
    (hinquiries : shim.inquiries.map Job.result? = y.inquiries) :
    ∃ t, Serves n s y t ∧ t.Stands n (next reply) ∧ t.shim.inquiries = shim.inquiries := by
  have hjobs : (shim.told n job act reply next).jobs = s.shim.jobs.set n (job.replied act reply next) := by
    rw [← hkept]
    rfl
  obtain ⟨log, hrun, hmt⟩ := hm.shim_run hf hmove hbackend hconnector hpods himages hinquiries
  refine ⟨_, ⟨⟨log, hrun⟩, hmt, .of_job hrun hjobs (fun k hk => by cases hk) (.of_eq rfl)⟩,
    ⟨⟨job.replied act reply next, ?_, rfl, rfl⟩, hidle⟩, rfl⟩
  show (shim.told n job act reply next).jobs[n]? = _
  rw [hjobs]
  exact List.getElem?_set_self (List.getElem?_eq_some_iff.mp hj).1

theorem Models.take_run (hm : x.Models s) {c : Pods.Call} {next : c.Result → Course α} {number : Nat}
    (h : s.Calls n number c next) {result : c.Result} (hr : x.pods.result? number c = some result) :
    ∃ t, Serves n s x t ∧ t.Stands n (next result) := by
  obtain ⟨⟨job, hj, hleft, hcall⟩, hidle⟩ := h
  have hmove : s.shim.move? (.proceed n) = some (s.shim.told n job (.pods c) result next) := by
    rw [Shim.move?, hj]
    show s.shim.proceed? n job = _
    rw [Shim.proceed?, hleft]
    dsimp only
    rw [hcall]
    dsimp only
    rw [hm.pods, hr]
    rfl
  obtain ⟨t, ht, hstands, -⟩ := hm.told_run (y := x) rfl hmove hj hidle rfl rfl rfl hm.pods hm.images hm.inquiries
  exact ⟨t, ht, hstands⟩

theorem Models.own_run (hm : x.Models s) (h : s.Stands n (Program.ask act next)) {shim : Shim α}
    (ho : s.shim.own act = some (reply, shim)) (hbackend : y.backend = x.backend)
    (hconnector : y.connector = x.connector) (hpods : shim.pods = y.pods) (himages : shim.images = y.images)
    (hinquiries : shim.inquiries.map Job.result? = y.inquiries) :
    ∃ t, Serves n s y t ∧ t.Stands n (next reply) ∧ t.shim.inquiries = shim.inquiries := by
  obtain ⟨⟨job, hj, hleft, -⟩, hidle⟩ := h
  have hmove : s.shim.move? (.proceed n) = some (shim.told n job act reply next) := by
    rw [Shim.move?, hj]
    show s.shim.proceed? n job = _
    rw [Shim.proceed?, hleft]
    cases act with
    | pods c => cases ho
    | _ =>
      dsimp only
      rw [ho]
      rfl
  exact hm.told_run rfl hmove hj hidle (Shim.own_jobs ho) hbackend hconnector hpods himages hinquiries

theorem Models.hear_run (hm : x.Models s) (h : s.Stands n (Program.ask act next)) (word : Shim.Word)
    (hf : Rig.free (.hear n word : Shim.Move α) = true) (hw : word.reply? act = some reply)
    (hbackend : y.backend = x.backend) (hconnector : y.connector = x.connector) (hpods : y.pods = x.pods)
    (himages : y.images = x.images) (hinquiries : y.inquiries = x.inquiries) :
    ∃ t, Serves n s y t ∧ t.Stands n (next reply) := by
  obtain ⟨⟨job, hj, hleft, -⟩, hidle⟩ := h
  have hmove : s.shim.move? (.hear n word) = some ((s.shim.closing act).told n job act reply next) := by
    rw [Shim.move?, hj]
    show s.shim.hear? n job word = _
    rw [Shim.hear?, hleft]
    dsimp only
    rw [hw]
    rfl
  have hkept : (s.shim.closing act).images = s.shim.images := by cases act <;> rfl
  have hkept' := congrArg (List.map Job.result?) (Shim.closing_inquiries s.shim act)
  obtain ⟨t, ht, hstands, -⟩ := hm.told_run (y := y) hf hmove hj hidle (Shim.closing_jobs s.shim act) hbackend hconnector
    ((Shim.closing_pods s.shim act).trans (hm.pods.trans hpods.symm)) (hkept.trans (hm.images.trans himages.symm))
    (hkept'.trans (hm.inquiries.trans hinquiries.symm))
  exact ⟨t, ht, hstands⟩

theorem Models.reply_run (hm : x.Models s) (h : s.Stands n (Program.ask act next))
    (hr : x.reply act = some (reply, y)) : ∃ t, Serves n s y t ∧ t.Stands n (next reply) := by
  have own {shim : Shim α} (ho : s.shim.own act = some (reply, shim)) (hbackend : y.backend = x.backend)
      (hconnector : y.connector = x.connector) (hpods : shim.pods = y.pods) (himages : shim.images = y.images)
      (hinquiries : shim.inquiries.map Job.result? = y.inquiries) : ∃ t, Serves n s y t ∧ t.Stands n (next reply) := by
    obtain ⟨t, ht, hstands, -⟩ := hm.own_run h ho hbackend hconnector hpods himages hinquiries
    exact ⟨t, ht, hstands⟩
  cases act with
  | pods c => cases hr
  | find reference => cases hr
  | inquire filter ids => cases hr
  | await inquiries =>
    obtain ⟨results, hresults, heq⟩ := Option.map_eq_some_iff.mp hr
    cases heq
    have ho : s.shim.own (.await inquiries) = some (reply, s.shim) := by
      have hnoted : (fun k : Nat => x.inquiries[k]?.join) = fun k => s.shim.inquiries[k]?.bind Job.result? := by
        funext k
        rw [← hm.inquiries, List.getElem?_map]
        cases s.shim.inquiries[k]? <;> rfl
      rw [Shim.own, ← hnoted, hresults]
      rfl
    exact own ho rfl rfl hm.pods hm.images hm.inquiries
  | suffix =>
    cases hr
    exact hm.hear_run h (.suffix (Machine.spread (x.named + 1))) rfl rfl rfl rfl rfl rfl rfl
  | forward connection request =>
    cases hr
    exact hm.hear_run h (.agent fun request => (x.world.forward connection request).1) rfl rfl rfl rfl rfl rfl rfl
  | close connection =>
    cases hr
    exact hm.hear_run h .closed rfl rfl rfl rfl rfl rfl rfl
  | bootImages =>
    cases hr
    exact own rfl rfl rfl (congrArg Pods.System.enableImageBoot hm.pods) hm.images hm.inquiries
  | images =>
    cases hr
    exact own (congrArg (fun images => some (images, s.shim)) hm.images) rfl rfl hm.pods hm.images hm.inquiries
  | keep reference found =>
    have hkeep : x.keep reference found = (reply, y) := Option.some.inj hr
    cases himages : x.images with
    | none =>
      rw [Session.keep, himages] at hkeep
      cases hkeep
      have ho : s.shim.own (.keep reference found) = some (.error (.unimplemented ""), s.shim) := by
        rw [Shim.own, hm.images, himages]
      exact own ho rfl rfl hm.pods hm.images hm.inquiries
    | some images =>
      rw [Session.keep, himages] at hkeep
      cases hkeep
      have ho : s.shim.own (.keep reference found) = some ((images.pulled reference found).1,
          { s.shim with images := some (images.pulled reference found).2 }) := by
        rw [Shim.own, hm.images, himages]
      exact own ho rfl rfl hm.pods rfl hm.inquiries
  | forget reference =>
    cases hr
    exact own rfl rfl rfl hm.pods (congrArg (Option.map fun images => images.forget reference) hm.images) hm.inquiries

end

section
variable {next : Except Failure (List Image.Record) → Course α} {reference : Image.Reference}

theorem Models.serves_of_work (hm : x.Models s) {log : List Pods.Note} (hrun : Rig.Run s log t)
    (hshim : t.shim = s.shim) (hspares : Rig.Spares (s.Belongs n) s t) (w : World) : Serves n s { x with world := w } t :=
  ⟨⟨log, hrun⟩, hm.of_work hrun hshim w, .of_work hrun (by rw [hshim]) hspares⟩

/-- Where a job stands that has had images looked for so far. -/
def Searched (s : Rig α) (n : Nat) (next : Except Failure (List Image.Record) → Course α) :
    Progress (Except Failure (List Image.Record)) → Prop
  | .ended found => s.Stands n (next found)
  | .crashed _ => True
  | .waiting w => ∃ left, s.Finds n next left ∧ w.Left left

/-- Work that looks for images has come so far, and the job goes on if it has come to its end. -/
theorem Models.searched_run (hm : x.Models s) {i : Nat} {talk : Program.Talk Ask Ask.Reply}
    {left : Work (Except Failure (List Image.Record))}
    (hi : s.errands[i]? = some ⟨.search n reference, talk, left, false⟩)
    (hj : ∃ job, s.shim.jobs[n]? = some job ∧ job.left = Program.ask (.find reference) next ∧ job.call = none)
    {progress : Progress (Except Failure (List Image.Record))} (hleft : progress.Left left) :
    ∃ t, Serves n s x t ∧ Searched t n next progress := by
  cases progress with
  | crashed why => exact ⟨s, .stay hm, trivial⟩
  | waiting w => exact ⟨s, .stay hm, left, ⟨reference, hj, i, talk, hi⟩, hleft⟩
  | ended found =>
    obtain rfl : left = .done found := hleft
    obtain ⟨job, hj, hnext, hcall⟩ := hj
    have hshim : s.shim.move? (.hear n (.found found)) = some (s.shim.told n job (.find reference) found next) := by
      rw [Shim.move?, hj]
      show s.shim.hear? n job (.found found) = _
      rw [Shim.hear?, hnext]
      rfl
    let t : Rig α :=
      { s with
        shim := s.shim.told n job (.find reference) found next
        errands := s.errands.set i ⟨.search n reference, talk, .done found, true⟩ }
    have hmove : s.move? (.tell i) = some t := by
      rw [Rig.move?, hi]
      show (s.shim.move? (.hear n (.found found))).map _ = _
      rw [hshim]
      rfl
    have hrun := Rig.Run.rest.move _ hmove
    refine ⟨t, ⟨⟨_, hrun⟩, ⟨hm.backend, hm.connector, hm.pods, hm.images, hm.inquiries, hm.reached.run hrun⟩, ?_⟩,
      ⟨job.replied (.find reference) found next, ?_, rfl, rfl⟩, ?_⟩
    · exact .of_job hrun rfl (fun k hk => by cases hk) (.of_set hi rfl rfl rfl)
    · exact List.getElem?_set_self (List.getElem?_eq_some_iff.mp hj).1
    · exact Rig.idle_of_told hm.reached.tended hi rfl rfl

theorem Models.find_run (hm : x.Models s) (h : s.Stands n (Program.ask (.find reference) next)) :
    ∃ t, Serves n s { x with world := (goOn x.now (x.findWork reference) x.world).2 } t ∧
      Searched t n next (goOn x.now (x.findWork reference) x.world).1 := by
  obtain ⟨⟨job, hj, hleft, hcall⟩, hidle⟩ := h
  have hdue : s.due (.search n reference) = true := by
    simp [Rig.due, hj, hleft]
  have hbusy : s.busy (Rig.Order.search n reference).giver = false := hidle
  have hwork : s.work (.search n reference) = x.findWork reference := by
    rw [Rig.work, hm.images]
    rfl
  let begun : Rig α := { s with errands := s.errands ++ [⟨.search n reference, [], x.findWork reference, false⟩] }
  have hbegin := Rig.begin_run hdue hbusy
  rw [hwork] at hbegin
  have hi : begun.errands[s.errands.length]? = some ⟨.search n reference, [], x.findWork reference, false⟩ :=
    List.getElem?_concat_length
  obtain ⟨talk, left, hprogress, hrun⟩ := goOn_run hi x.now x.world
  have hserves := hm.serves_of_work (n := n) (hbegin.trans hrun) rfl
    (.trans (.of_begin (o := .search n reference) rfl (by rw [hwork])) (.of_set hi rfl rfl rfl))
    (goOn x.now (x.findWork reference) x.world).2
  obtain ⟨t, ht, hsearched⟩ := hserves.models.searched_run
    (List.getElem?_set_self (List.getElem?_eq_some_iff.mp hi).1) ⟨job, hj, hleft, hcall⟩ hprogress
  exact ⟨t, hserves.trans ht, hsearched⟩

theorem Models.resume_run (hm : x.Models s) {left : Work (Except Failure (List Image.Record))}
    (h : s.Finds n next left) {w : Waiting (Except Failure (List Image.Record))} (hw : w.Left left) :
    ∃ t, Serves n s { x with world := (w.resume x.now x.world).2 } t ∧
      Searched t n next (w.resume x.now x.world).1 := by
  obtain ⟨reference, hj, i, talk, hi⟩ := h
  obtain ⟨talk', left', hprogress, hrun⟩ := PodMachines.resume_run hi hw x.now x.world
  have hserves := hm.serves_of_work (n := n) hrun rfl (.of_set hi rfl rfl rfl) (w.resume x.now x.world).2
  obtain ⟨t, ht, hsearched⟩ := hserves.models.searched_run
    (List.getElem?_set_self (List.getElem?_eq_some_iff.mp hi).1) hj hprogress
  exact ⟨t, hserves.trans ht, hsearched⟩

end

/-! ### Inquiries -/

/-- What was done for an inquiry: no other work was touched but for calls that it has started. -/
structure Pursues (k : Nat) (s t : Rig α) : Prop where
  run : ∃ log, Rig.Run s log t
  jobs : t.shim.jobs = s.shim.jobs
  others : ∀ j, j ≠ k → t.shim.inquiries[j]? = s.shim.inquiries[j]?
  spares : Rig.Spares (fun who => ∃ me : Pods.Strand, who = .inl me ∧ s.shim.pods.calls.length ≤ me.call) s t

theorem Pursues.trans (h : Pursues k s t) (h' : Pursues k t u) : Pursues k s u := by
  obtain ⟨log, hrun⟩ := h.run
  obtain ⟨more, hmore⟩ := h'.run
  refine ⟨⟨_, hrun.trans hmore⟩, h'.jobs.trans h.jobs, fun j hj => (h'.others j hj).trans (h.others j hj),
    h.spares.trans (h'.spares.mono ?_)⟩
  rintro who ⟨me, rfl, hlen⟩
  exact ⟨me, rfl, Nat.le_trans hrun.calls_le hlen⟩

theorem Pursues.stay (s : Rig α) : Pursues k s s :=
  ⟨⟨[], .rest⟩, rfl, fun _ _ => rfl, .of_eq rfl⟩

theorem Pursues.leaves (h : Pursues k s t) : Rig.Leaves n s t := by
  obtain ⟨log, hrun⟩ := h.run
  refine .of_work hrun h.jobs (h.spares.mono ?_)
  rintro who ⟨me, rfl, hlen⟩
  exact .inl hlen

theorem Pursues.stands (h : Pursues k s t) {left : Course α} (hs : s.Stands n left) : t.Stands n left := by
  obtain ⟨hjob, hidle⟩ := hs
  refine ⟨h.jobs ▸ hjob, h.spares.idle _ ?_ hidle⟩
  rintro ⟨me, heq, -⟩
  cases heq

section
variable {i : Inquiry} {act : Act} {next : act.Reply → Course (Except Failure (List Message.Container))}

theorem Models.informed_run (hm : x.Models s) (hi : s.shim.inquiries[k]? = some i) {m : Shim.Move α}
    (hf : Rig.free m = true) {reply : act.Reply} (hmove : s.shim.move? m = some (s.shim.informed k i act reply next)) :
    ∃ t, Pursues k s t ∧ t.shim.inquiries[k]? = some (i.replied act reply next) ∧
      ({ x with inquiries := x.inquiries.set k (i.replied act reply next).result? } : Session).Models t := by
  have hinquiries : (s.shim.informed k i act reply next).inquiries.map Job.result? =
      x.inquiries.set k (i.replied act reply next).result? := by
    rw [← hm.inquiries]
    exact List.map_set
  obtain ⟨log, hrun, hmt⟩ := hm.shim_run
    (y := { x with inquiries := x.inquiries.set k (i.replied act reply next).result? }) hf hmove rfl rfl hm.pods hm.images
    hinquiries
  refine ⟨_, ⟨⟨log, hrun⟩, rfl, fun j hj => List.getElem?_set_ne (Ne.symm hj), .of_eq rfl⟩, ?_, hmt⟩
  exact List.getElem?_set_self (List.getElem?_eq_some_iff.mp hi).1

/-- An inquiry that asks for something has come to nothing yet. -/
theorem result?_eq_none (hl : i.left = Program.ask act next) : i.result? = none := by
  rw [Job.result?, hl]

/-- An inquiry has the call that it asks for started, and is told what the call comes to at its one turn. -/
theorem Models.sought_run {c : Pods.Call} {next : c.Result → Course (Except Failure (List Message.Container))}
    (hm : x.Models s) (hi : s.shim.inquiries[k]? = some i) (hl : i.left = Program.ask (.pods c) next) (hc : i.call = none)
    {went : Calling × Session} (hwent : Calling.turn ⟨(x.startCall c).1, c, [], none⟩ (x.startCall c).2 = went)
    {result : c.Result} (hr : went.2.pods.result? went.1.number c = some result) :
    ∃ t i', Pursues k s t ∧ t.shim.inquiries[k]? = some i' ∧ i'.left = next result ∧ i'.call = none ∧
      went.2.inquiries = x.inquiries ∧
      ({ went.2 with inquiries := x.inquiries.set k i'.result? } : Session).Models t := by
  have hlen := (List.getElem?_eq_some_iff.mp hi).1
  have hseek : s.shim.move? (.pursue k) = some (s.shim.seeking k i c) := by
    simp only [Shim.move?, hi, Option.bind_some, Shim.pursue?, hl, hc]
  have hnothing : ({ i with call := some s.shim.pods.calls.length } : Inquiry).result? = none := result?_eq_none hl
  have hinquiries : (s.shim.seeking k i c).inquiries.map Job.result? = x.inquiries := by
    rw [← hm.inquiries, Shim.seeking, List.map_set, hnothing]
    refine (Pods.set_self ?_).symm
    rw [List.getElem?_map, hi, Option.map_some, result?_eq_none hl]
  obtain ⟨log, hrun, hmt⟩ := hm.shim_run (y := (x.startCall c).2) rfl hseek rfl rfl
    (congrArg (Pods.System.start · c) hm.pods) hm.images hinquiries
  obtain ⟨t, ht⟩ := Calling.turn_run (c := ⟨(x.startCall c).1, c, [], none⟩) hmt rfl fun q => hm.unbegun q
  rw [hwent] at ht
  obtain ⟨more, hmore⟩ := ht.run
  have hpursues : Pursues k s t := by
    refine ⟨⟨_, hrun.trans hmore⟩, ht.jobs, fun j hj => ?_,
      .trans (t := { s with shim := s.shim.seeking k i c }) (.of_eq rfl) (ht.spares.mono ?_)⟩
    · rw [ht.inquiries]
      exact List.getElem?_set_ne (Ne.symm hj)
    · rintro who ⟨q, -, rfl⟩
      exact ⟨_, rfl, Nat.le_of_eq (congrArg (fun pods : Pods.System => pods.calls.length) hm.pods)⟩
  have hsought : t.shim.inquiries[k]? = some { i with call := some s.shim.pods.calls.length } := by
    rw [ht.inquiries]
    exact List.getElem?_set_self hlen
  have hnumber : went.1.number = s.shim.pods.calls.length :=
    ht.number.trans (congrArg (fun pods : Pods.System => pods.calls.length) hm.pods.symm)
  have hfind : t.shim.move? (.pursue k) = some (t.shim.informed k { i with call := some s.shim.pods.calls.length } (.pods c)
      result next) := by
    rw [hnumber, ← ht.models.pods] at hr
    simp only [Shim.move?, hsought, Option.bind_some, Shim.pursue?, hl, hr, Option.map_some]
  have hsame : went.2.inquiries = x.inquiries := by rw [← ht.models.inquiries, ht.inquiries, hinquiries]
  obtain ⟨u, hu, hi', hmu⟩ := ht.models.informed_run hsought rfl hfind
  exact ⟨u, _, hpursues.trans hu, hi', rfl, rfl, hsame, hsame ▸ hmu⟩

/-- An inquiry that need not wait on the way is brought to its end by a run. -/
theorem Models.straight_run {course : Course (Except Failure (List Message.Container))}
    (hm : ({ x with inquiries := x.inquiries.set k i.result? } : Session).Models s) (hx : x.inquiries[k]? = some none)
    (hi : s.shim.inquiries[k]? = some i) (hl : i.left = course) (hc : i.call = none)
    {result : Except Failure (List Message.Container)} (h : straight course x = some (result, y)) :
    ∃ t, Pursues k s t ∧ ({ y with inquiries := y.inquiries.set k (some result) } : Session).Models t := by
  induction course generalizing x s i with
  | done value =>
    cases h
    rw [Job.result?_eq_some.mpr hl] at hm
    exact ⟨s, .stay s, hm⟩
  | crash why => cases h
  | ask act next ih =>
    have hm : x.Models s := by
      rw [result?_eq_none hl, ← Pods.set_self hx] at hm
      exact hm
    cases act with
    | pods c =>
      rw [straight] at h
      dsimp only at h
      generalize hwent : Calling.turn ⟨(x.startCall c).1, c, [], none⟩ (x.startCall c).2 = went at h
      split at h
      · rename_i reply hb hr
        obtain ⟨t, i', ht, hi', hleft, hcall, hsame, hmt⟩ := hm.sought_run hi hl hc hwent hr
        obtain ⟨u, hu, hmu⟩ := ih reply (x := went.2) (hsame ▸ hmt) (hsame ▸ hx) hi' hleft hcall h
        exact ⟨u, ht.trans hu, hmu⟩
      · cases h
    | forward connection request =>
      have hlearn : s.shim.move? (.learn k fun request => (x.world.forward connection request).1) =
          some (s.shim.informed k i (.forward connection request) (x.world.forward connection request).1 next) := by
        simp only [Shim.move?, hi, Option.bind_some, Shim.learn?, hl]
      obtain ⟨t, ht, hi', hmt⟩ :=
        (hm.of_work .rest rfl (x.world.forward connection request).2).informed_run hi rfl hlearn
      obtain ⟨u, hu, hmu⟩ := ih _ hmt hx hi' rfl rfl h
      exact ⟨u, ht.trans hu, hmu⟩
    | _ => cases h

/-- Inquiries that are begun and need not wait are brought to their ends by a run. -/
theorem Models.inquireAll_run {filter : Option Message.ContainerFilter} {ids : List String} (hm : x.Models s)
    (hfresh : ∀ j id, ids[j]? = some id → s.shim.inquiries[k + j]? = some (.fresh (inquiry filter id)))
    (h : inquireAll filter k ids x = some y) :
    ∃ t, Serves n s y t ∧ ∀ left : Course α, s.Stands n left → t.Stands n left := by
  induction ids generalizing x s k with
  | nil =>
    cases h
    exact ⟨s, .stay hm, fun _ h => h⟩
  | cons id ids ih =>
    obtain ⟨⟨result, z⟩, hstraight, hrest⟩ := Option.bind_eq_some_iff.mp h
    have hi : s.shim.inquiries[k]? = some (.fresh (inquiry filter id)) := hfresh 0 id rfl
    have hx : x.inquiries[k]? = some none := by
      rw [← hm.inquiries, List.getElem?_map, hi]
      rfl
    have hm' : ({ x with inquiries := x.inquiries.set k (Job.fresh (inquiry filter id)).result? } : Session).Models s := by
      have hself : x.inquiries = x.inquiries.set k (Job.fresh (inquiry filter id)).result? := Pods.set_self hx
      rw [← hself]
      exact hm
    obtain ⟨t, ht, hmt⟩ := hm'.straight_run hx hi rfl rfl hstraight
    obtain ⟨u, hu, hstands⟩ := ih hmt (fun j id hid => by
      rw [Nat.add_right_comm, ht.others (k + j + 1) (by omega)]
      exact hfresh (j + 1) id hid) hrest
    obtain ⟨log, hrun⟩ := ht.run
    exact ⟨u, .trans ⟨⟨log, hrun⟩, hmt, ht.leaves⟩ hu, fun left hs => hstands left (ht.stands hs)⟩

end

theorem Models.inquire_run {filter : Option Message.ContainerFilter} {ids : List String} {next : List Nat → Course α}
    (hm : x.Models s) (h : s.Stands n (Program.ask (.inquire filter ids) next)) (hr : x.inquire filter ids = some y) :
    ∃ t, Serves n s y t ∧ t.Stands n (next (List.range' x.inquiries.length ids.length)) := by
  have hlength : s.shim.inquiries.length = x.inquiries.length := by rw [← hm.inquiries, List.length_map]
  have ho : s.shim.own (.inquire filter ids) = some (List.range' x.inquiries.length ids.length,
      { s.shim with inquiries := s.shim.inquiries ++ ids.map fun id => .fresh (inquiry filter id) }) := by
    rw [Shim.own, hlength]
  obtain ⟨t, ht, hstands, hinquiries⟩ := hm.own_run
    (y := { x with inquiries := x.inquiries ++ ids.map fun _ => none }) h ho rfl rfl hm.pods hm.images (by
      rw [List.map_append, hm.inquiries, List.map_map]
      rfl)
  obtain ⟨u, hu, hkept⟩ := ht.models.inquireAll_run (n := n) (fun j id hid => by
    rw [hinquiries, ← hlength, List.getElem?_append_right (Nat.le_add_right ..), Nat.add_sub_cancel_left,
      List.getElem?_map, hid]
    rfl) hr
  exact ⟨u, ht.trans hu, hkept _ hstands⟩

/-! ### Turns of tasks -/

/-- The job of the service that a task of a session is. -/
def Task.Matches (s : Rig α) (n : Nat) : Task α → Prop
  | .course rest => s.Stands n rest
  | .calling c next => s.Calls n c.number c.call next ∧ c.broken = none ∧ ∀ q, c.Sits s q
  | .finding w next => ∃ left, s.Finds n next left ∧ w.Left left
  | .ended answer => s.Stands n (.done answer)
  | .broken _ => True

theorem Task.Matches.leaves {task : Task α} (h : task.Matches s n) (hs : s.Reached) (hl : Rig.Leaves k s t)
    (hk : n ≠ k) : task.Matches t n := by
  cases task with
  | course rest => exact Rig.Stands.leaves h hl hk
  | calling c next =>
    obtain ⟨hcalls, hb, hsits⟩ := h
    exact ⟨hcalls.leaves hl hk, hb, fun q => (hsits q).spared hl.spares (hcalls.stranger hs hk q) rfl rfl⟩
  | finding w next =>
    obtain ⟨left, hfinds, hw⟩ := h
    exact ⟨left, hfinds.leaves hl hk, hw⟩
  | ended answer => exact Rig.Stands.leaves h hl hk
  | broken why => trivial

theorem Calling.turn_serves {c : Calling} {next : c.call.Result → Course α} (hm : x.Models s)
    (h : s.Calls n c.number c.call next) (hb : c.broken = none) (hs : ∀ q, c.Sits s q) :
    ∃ t, Serves n s (c.turn x).2 t ∧ t.Calls n (c.turn x).1.number c.call next ∧ (c.turn x).1.call = c.call ∧
      ((c.turn x).1.broken = none → ∀ q, (c.turn x).1.Sits t q) := by
  obtain ⟨t, ht⟩ := Calling.turn_run hm hb hs
  obtain ⟨⟨job, hj, hleft, hcall⟩, hidle⟩ := h
  have hspares : Rig.Spares (s.Belongs n) s t := ht.spares.mono fun who ⟨q, _, hwho⟩ => hwho ▸ .inr ⟨job, hj, hcall⟩
  obtain ⟨log, hrun⟩ := ht.run
  refine ⟨t, ⟨ht.run, ht.models, .of_work hrun ht.jobs hspares⟩,
    ⟨⟨job, ht.jobs ▸ hj, hleft, ht.number ▸ hcall⟩, ?_⟩, ht.call, fun hb' q => (ht.own hb').2 q trivial⟩
  refine ht.spares.idle _ ?_ hidle
  rintro ⟨q, -, heq⟩
  cases heq

/-- After the turn of its call a task goes on if the call has ended. -/
theorem Task.afterCall_run {c : Calling} {call : Pods.Call} {next : call.Result → Course α} (hm : x.Models s)
    (h : s.Calls n c.number call next) (hs : c.broken = none → ∀ q, c.Sits s q) :
    match Task.afterCall call next c x with
    | .inl task => task.Matches s n
    | .inr result => ∃ t, Serves n s x t ∧ t.Stands n (next result) := by
  unfold Task.afterCall
  cases hb : c.broken with
  | some why => trivial
  | none =>
    cases hr : x.pods.result? c.number call with
    | some result => exact hm.take_run h hr
    | none =>
      by_cases hcall : c.call = call
      · subst hcall
        simp only [dif_pos]
        exact ⟨h, hb, hs hb⟩
      · simp only [dif_neg hcall]
        trivial

/-- A task has come so far, with the session. -/
def Comes (n : Nat) (s : Rig α) (went : Task α × Session) : Prop :=
  ∃ t, Serves n s went.2 t ∧ went.1.Matches t n

theorem Serves.comes {went : Task α × Session} (h : Serves n s y t) (h' : Comes n t went) : Comes n s went := by
  obtain ⟨u, hu, hmatches⟩ := h'
  exact ⟨u, h.trans hu, hmatches⟩

/-- What a task comes to at the turn of its call, if it can go on after it. -/
theorem Calling.turn_comes {c : Calling} {next : c.call.Result → Course α} (hm : x.Models s)
    (h : s.Calls n c.number c.call next) (hb : c.broken = none) (hs : ∀ q, c.Sits s q)
    (later : ∀ (result : c.call.Result) {y : Session} {t : Rig α}, y.Models t → t.Stands n (next result) →
      Comes n t (Task.follow (next result) y)) :
    (∃ task, Task.afterCall c.call next (c.turn x).1 (c.turn x).2 = .inl task ∧ Comes n s (task, (c.turn x).2)) ∨
      ∃ result, Task.afterCall c.call next (c.turn x).1 (c.turn x).2 = .inr result ∧
        Comes n s (Task.follow (next result) (c.turn x).2) := by
  obtain ⟨t, ht, hcalls, hcall, hsits⟩ := Calling.turn_serves hm h hb hs
  have hafter := Task.afterCall_run ht.models hcalls hsits
  cases hcase : Task.afterCall c.call next (c.turn x).1 (c.turn x).2 with
  | inl task =>
    rw [hcase] at hafter
    exact .inl ⟨task, rfl, t, ht, hafter⟩
  | inr result =>
    rw [hcase] at hafter
    obtain ⟨u, hu, hstands⟩ := hafter
    exact .inr ⟨result, rfl, (ht.trans hu).comes (later result hu.models hstands)⟩

theorem Task.follow_ask {act : Act} {next : act.Reply → Course α} (hp : ∀ c, act ≠ .pods c) (hf : ∀ r, act ≠ .find r)
    (hi : ∀ filter ids, act ≠ .inquire filter ids) :
    Task.follow (Program.ask act next) x =
      match x.reply act with
      | some (reply, y) => Task.follow (next reply) y
      | none => (.broken "", x) := by
  cases act with
  | pods c => exact absurd rfl (hp c)
  | find reference => exact absurd rfl (hf reference)
  | inquire filter ids => exact absurd rfl (hi filter ids)
  | await inquiries =>
    cases hr : x.reply (.await inquiries) <;> simp only [Task.follow, hr]
  | _ => rfl

theorem Task.follow_run {course : Course α} (hm : x.Models s) (h : s.Stands n course) :
    Comes n s (Task.follow course x) := by
  induction course generalizing x s with
  | done answer => exact ⟨s, .stay hm, h⟩
  | crash why => exact ⟨s, .stay hm, trivial⟩
  | ask act next ih =>
    by_cases hp : ∃ call, act = .pods call
    · obtain ⟨call, rfl⟩ := hp
      obtain ⟨t, ht, hcalls, hsits⟩ := hm.call_run h
      refine ht.comes ?_
      rw [Task.follow]
      dsimp only
      obtain ⟨task, hafter, hcomes⟩ | ⟨result, hafter, hcomes⟩ := Calling.turn_comes ht.models hcalls rfl hsits ih
      · rw [hafter]
        exact hcomes
      · rw [hafter]
        exact hcomes
    · by_cases hf : ∃ reference, act = .find reference
      · obtain ⟨reference, rfl⟩ := hf
        obtain ⟨t, ht, hsearched⟩ := hm.find_run h
        rw [Task.follow]
        generalize goOn x.now (x.findWork reference) x.world = went at ht hsearched ⊢
        obtain ⟨progress, world⟩ := went
        cases progress with
        | ended found => exact ht.comes (ih found ht.models hsearched)
        | crashed why => exact ⟨t, ht, trivial⟩
        | waiting w => exact ⟨t, ht, hsearched⟩
      · by_cases hi : ∃ filter ids, act = .inquire filter ids
        · obtain ⟨filter, ids, rfl⟩ := hi
          rw [Task.follow]
          cases hr : x.inquire filter ids with
          | none => exact ⟨s, .stay hm, trivial⟩
          | some y =>
            obtain ⟨t, ht, hstands⟩ := hm.inquire_run h hr
            exact ht.comes (ih _ ht.models hstands)
        · rw [Task.follow_ask (fun c hc => hp ⟨c, hc⟩) (fun r hr => hf ⟨r, hr⟩) fun _ _ hact => hi ⟨_, _, hact⟩]
          cases hr : x.reply act with
          | none => exact ⟨s, .stay hm, trivial⟩
          | some went =>
            obtain ⟨reply, y⟩ := went
            obtain ⟨t, ht, hstands⟩ := hm.reply_run h hr
            exact ht.comes (ih reply ht.models hstands)

theorem Task.turn_run {task : Task α} (hm : x.Models s) (h : task.Matches s n) : Comes n s (task.turn x) := by
  cases task with
  | course rest => exact Task.follow_run hm h
  | calling c next =>
    obtain ⟨hcalls, hb, hsits⟩ := h
    rw [Task.turn]
    dsimp only
    obtain ⟨task, hafter, hcomes⟩ | ⟨result, hafter, hcomes⟩ :=
      Calling.turn_comes hm hcalls hb hsits fun _ _ _ hm hstands => Task.follow_run hm hstands
    · rw [hafter]
      exact hcomes
    · rw [hafter]
      exact hcomes
  | finding w next =>
    obtain ⟨left, hfinds, hw⟩ := h
    obtain ⟨t, ht, hsearched⟩ := hm.resume_run hfinds hw
    rw [Task.turn]
    generalize w.resume x.now x.world = went at ht hsearched ⊢
    obtain ⟨progress, world⟩ := went
    cases progress with
    | ended found => exact ht.comes (Task.follow_run ht.models hsearched)
    | crashed why => exact ⟨t, ht, trivial⟩
    | waiting w => exact ⟨t, ht, hsearched⟩
  | ended answer => exact ⟨s, .stay hm, h⟩
  | broken why => exact ⟨s, .stay hm, trivial⟩

end Session
end PodMachines
