import PodMachines.Doc.Standard
import PodMachines.Proofs.Backend.Started
import PodMachines.Proofs.Shim.Errand
import PodMachines.Proofs.Shim.Behalf

/-! Which machines the service ends. Main statement: a command that ends a machine is only run for a machine that the
    service has made, by a create that fails or by a remove that has found its sandbox; ids that lead nowhere have
    nothing done; and the machine of a sandbox that was removed is left alone. -/

namespace PodMachines
open Service Session

namespace Rig

/-! ### Creates that fail -/

/-- Whether work that makes a machine for a call is under way, and can only fail. -/
def Errand.Failing (n : Nat) : Errand → Prop
  | ⟨.strand me (.backend (.provision _)), _, left, told⟩ =>
    me.call = n ∧ told = false ∧ left.Yields fun a => ∃ f, a = .error f
  | _ => False

/-- A create that comes to no sandbox. -/
inductive Doomed {α : Type} (s : Rig α) (n : Nat) : Prop
  | failing {spec : Sandbox.Spec} {suffix : UInt32} {vm : Machine.Spec} {e : Errand}
      (hp : s.shim.pods.calls[n]? = some ⟨.create spec suffix, .provisioning vm⟩) (he : e ∈ s.errands)
      (hf : e.Failing n)
  | discarding {spec : Sandbox.Spec} {suffix : UInt32} {machine : Machine.Handle} {why : Failure}
      (hp : s.shim.pods.calls[n]? = some ⟨.create spec suffix, .discarding machine why⟩)
  | failed {spec : Sandbox.Spec} {suffix : UInt32} {f : Failure}
      (hp : s.shim.pods.calls[n]? = some ⟨.create spec suffix, .finished (.error f)⟩)

section
variable {α : Type} {s t u : Rig α} {log notes more : List Pods.Note} {n : Nat} {e : Errand}

theorem Errand.Failing.eq (h : e.Failing n) : ∃ me spec talk, ∃ left : Work (Except Failure Machine.Handle),
    e = ⟨.strand me (.backend (.provision spec)), talk, left, false⟩ ∧ me.call = n ∧
      left.Yields fun a => ∃ f, a = .error f := by
  obtain ⟨order, talk, left, told⟩ := e
  cases order with
  | search n reference => exact h.elim
  | strand me request =>
    cases request with
    | backend request =>
      cases request with
      | provision spec =>
        obtain ⟨hn, rfl, hy⟩ := h
        exact ⟨me, spec, talk, left, rfl, hn, hy⟩
      | _ => exact h.elim
    | _ => exact h.elim

theorem Errand.Failing.replied {q : Ask} {next : q.Reply → Work e.order.Answer} (h : e.Failing n)
    (hl : e.left = Program.ask q next) (reply : q.Reply) : (e.replied q reply next).Failing n := by
  obtain ⟨me, spec, talk, left, rfl, hn, hy⟩ := h.eq
  have hl : left = Program.ask q next := hl
  have led (left : Work (Except Failure Machine.Handle)) {next : q.Reply → Work (Except Failure Machine.Handle)}
      (hy : left.Yields fun a => ∃ f, a = .error f) (hl : left = Program.ask q next) :
      (next reply).Yields fun a => ∃ f, a = .error f := by
    subst hl
    exact hy reply
  exact ⟨hn, rfl, led left hy hl⟩

theorem Errand.Failing.told {a : e.order.Answer} (h : e.Failing n) (hl : e.left = Program.done a) :
    ∃ me spec f, (e.order.told a : Shim.Move α) = .pods (.answer me (.backend (.provision spec)) (.error f)) ∧
      me.call = n := by
  obtain ⟨me, spec, talk, left, rfl, hn, hy⟩ := h.eq
  have hl : left = Program.done a := hl
  have came (left : Work (Except Failure Machine.Handle)) {a : Except Failure Machine.Handle}
      (hy : left.Yields fun a => ∃ f, a = .error f) (hl : left = Program.done a) : ∃ f, a = .error f := by
    subst hl
    exact hy
  obtain ⟨f, ha⟩ := came left hy hl
  exact ⟨me, spec, f, congrArg (fun a => Shim.Move.pods (.answer me (.backend (.provision spec)) a)) ha, hn⟩

/-- A call that asks others stays where it is, unless it makes checks, until it is answered. -/
theorem call_of_move (me : Pods.Strand) {shim : Shim α} {m : Shim.Move α} (h : s.shim.move? m = some shim)
    {c : Pods.Call} {p : Pods.Point c} {request : Pods.Request} (hp : s.shim.pods.calls[n]? = some ⟨c, p⟩)
    (hr : p.request? me s.shim.pods.store = some request) (hg : (⟨c, p⟩ : Pods.Running).gathers = false) :
    shim.pods.calls[n]? = some ⟨c, p⟩ ∨ ∃ you other, ∃ a : other.Answer, ∃ q ds st,
      m = .pods (.answer you other a) ∧ you.call = n ∧ shim.pods.calls[n]? = some q ∧
        Pods.Pace s.shim.pods.backend you s.shim.pods.store ⟨c, p⟩ (.hears other a :: ds) q st := by
  obtain hpods | ⟨pm, hpm, hm⟩ := (Shim.goes_of_move h).pods_eq
  · exact .inl (hpods ▸ hp)
  · obtain hkept | ⟨you, other, a, q, ds, st, rfl, hanswered⟩ := Pods.System.call_of_move hpm hp hr hg
    · exact .inl hkept
    · obtain rfl | hnone := hm
      · exact .inr ⟨you, other, a, q, ds, st, rfl, hanswered⟩
      · cases hnone

theorem doomed_of_discarding {shim : Shim α} {m : Shim.Move α} {errands : List Errand} (h : s.shim.move? m = some shim)
    {spec : Sandbox.Spec} {suffix : UInt32} {machine : Machine.Handle} {why : Failure}
    (hp : s.shim.pods.calls[n]? = some ⟨.create spec suffix, .discarding machine why⟩) :
    Doomed { s with shim := shim, errands := errands } n := by
  obtain hkept | ⟨you, other, a, q, ds, st, -, -, hq, hpace⟩ := call_of_move ⟨n, 0⟩ h hp rfl rfl
  · exact .discarding hkept
  · cases hpace with
    | discarded a => exact .failed hq

theorem Doomed.goes (h : s.Doomed n) (ht : s.Tended) (hg : s.Goes notes t) : t.Doomed n := by
  cases h with
  | discarding hp =>
    cases hg with
    | shim hf hm => exact doomed_of_discarding hm hp
    | begin hd hb => exact .discarding hp
    | reply hi hl reply => exact .discarding hp
    | tell hi ho hl hm => exact doomed_of_discarding hm hp
  | failed hp =>
    cases hg with
    | shim hf hm => exact .failed ((Shim.goes_of_move hm).finished_kept hp)
    | begin hd hb => exact .failed hp
    | reply hi hl reply => exact .failed hp
    | tell hi ho hl hm => exact .failed ((Shim.goes_of_move hm).finished_kept hp)
  | @failing spec suffix vm e hp he hf =>
    obtain ⟨k, hk⟩ := List.getElem?_of_mem he
    have hlt := (List.getElem?_eq_some_iff.mp hk).1
    cases hg with
    | shim hfree hm =>
      obtain hkept | ⟨you, other, a, q, ds, st, rfl, -⟩ := call_of_move ⟨n, 0⟩ hm hp rfl rfl
      · exact .failing hkept he hf
      · cases hfree
    | begin hd hb => exact .failing hp (List.mem_append_left _ he) hf
    | @reply i x q next hi hl reply =>
      by_cases hik : i = k
      · subst hik
        obtain rfl := Option.some.inj (hi.symm.trans hk)
        exact .failing hp (List.mem_of_getElem? (List.getElem?_set_self hlt)) (hf.replied hl reply)
      · exact .failing hp (List.mem_of_getElem? ((List.getElem?_set_ne hik).trans hk)) hf
    | @tell i x a shim hi ho hl hm =>
      by_cases hik : i = k
      · -- The work itself is over, and has failed.
        subst hik
        obtain rfl := Option.some.inj (hi.symm.trans hk)
        obtain ⟨me, spec', f, htold, rfl⟩ := hf.told (α := α) hl
        rw [htold] at hm
        obtain ⟨pods, hpods, rfl⟩ := Option.map_eq_some_iff.mp hm
        obtain ⟨p, q, ds, st, hp', rfl, -, hpace⟩ := Pods.System.pace_of_answer hpods
        obtain rfl := Option.some.inj (hp'.symm.trans hp)
        cases hpace with
        | unprovisioned f => exact .failed (List.getElem?_set_self (List.getElem?_eq_some_iff.mp hp).1)
      · have hmem := List.mem_of_getElem? ((List.getElem?_set_ne (a := { x with told := true }) hik).trans hk)
        obtain hkept | ⟨you, other, a', q, ds, st, htold, hyou, -⟩ := call_of_move ⟨n, 0⟩ hm hp rfl rfl
        · exact .failing hkept hmem hf
        · -- No other work is under way for the call.
          obtain ⟨me, spec', talk, left, rfl, hme, -⟩ := hf.eq
          have hmine := (ht.asks hk rfl rfl).2
          refine absurd (ht.apart hi hk ho rfl ?_) hik
          have horder := Order.of_told htold
          have hyours := (ht.asks hi ho horder).2
          have hp' := hp
          rw [← hyou] at hp'
          rw [← hme] at hp
          have hpart := (Pods.System.part_eq_zero hp' rfl hyours).trans (Pods.System.part_eq_zero hp rfl hmine).symm
          rw [horder]
          obtain ⟨call, part⟩ := you
          obtain ⟨call', part'⟩ := me
          cases hyou
          cases hme
          cases hpart
          rfl

/-- A create that comes to no sandbox comes to none however the service goes on. -/
theorem Run.doomed (h : Run s more t) (ht : s.Tended) (hd : s.Doomed n) : t.Doomed n := by
  refine (Run.induct (P := fun _ t => t.Tended ∧ t.Doomed n) ⟨ht, hd⟩ ?_ h).2
  rintro log notes t u - ⟨ht, hd⟩ hg
  exact ⟨ht.goes hg, hd.goes ht hg⟩

theorem Doomed.call_ne (h : s.Doomed n) {spec : Sandbox.Spec} {suffix : UInt32} {id : String} :
    s.shim.pods.calls[n]? ≠ some ⟨.create spec suffix, .finished (.ok id)⟩ := by
  intro hp
  cases h with
  | failing hp' => cases hp'.symm.trans hp
  | discarding hp' => cases hp'.symm.trans hp
  | failed hp' => cases hp'.symm.trans hp

end

/-! ### Machines that are ended -/

/-- The command that work is about to have run. -/
def Errand.running? (e : Errand) : Option Command :=
  match e.left with
  | Program.ask (.run command) _ => some command
  | _ => none

theorem Errand.running?_eq_some {e : Errand} {command : Command} :
    e.running? = some command ↔ ∃ next, e.left = Program.ask (.run command) next := by
  unfold running?
  constructor
  · intro h
    split at h
    · rename_i next hl
      cases h
      exact ⟨next, hl⟩
    · cases h
  · rintro ⟨next, hl⟩
    rw [hl]

section
variable [Doc.Parsers]

/-- What the machine of an id is ended for, in the `n`-th call. -/
inductive Warrant {α : Type} (b : Tooled) (first : Pods.System) (log : List Pods.Note) (t : Rig α) (n : Nat)
    (id : String) : Prop
  /-- A create whose own work has made the machine, and which comes to no sandbox however the service goes on. -/
  | undone {spec : Sandbox.Spec} {suffix : UInt32} {p : Pods.Point (.create spec suffix)} {e : Errand}
      {me : Pods.Strand} {vm : Machine.Spec} (hp : t.shim.pods.calls[n]? = some ⟨.create spec suffix, p⟩)
      (he : e ∈ t.errands) (ho : e.order = .strand me (.backend (.provision vm))) (hn : me.call = n)
      (hid : id ∈ b.obtained e.talk)
      (hfails : ∀ more u, Run t more u → ∀ sandbox,
        u.shim.pods.calls[n]? ≠ some ⟨.create spec suffix, .finished (.ok sandbox)⟩)
  /-- A remove of the sandbox of the machine, which it has found in the directory. -/
  | removed {p : Pods.Point (.remove id)} {i : Nat} {r : Pods.Record}
      (hp : t.shim.pods.calls[n]? = some ⟨.remove id, p⟩)
      (hf : Pods.Found first log t.shim.pods n (.remove id) id i) (hr : t.shim.pods.store.records[i]? = some r)
      (hm : r.machine.id = id)

/-- Whether the sandbox of an id was removed: by a call, or by a request. -/
inductive Removed (t : Rig Answer) (id : String) : Prop
  | call {n : Nat} (hp : t.shim.pods.calls[n]? = some ⟨.remove id, .finished (.ok ())⟩)
  | request {n : Nat} {job : Job Answer} {name : String} (hj : t.shim.jobs[n]? = some job)
      (hc : job.course = requested name (.removePod id)) (hl : job.left = Program.done (.response (.removePod id) ()))

section
variable {α : Type} {b : Tooled} {connector : Agent.Connector} {now : Nat} {images : Option Images} {t : Rig α}
  {log : List Pods.Note} {e : Errand} {command : Command} {id : String}

theorem Accounted.open_of_runs (h : Accounted b log t) (he : e ∈ t.errands) (hr : e.running? = some command) :
    e.told = false := by
  obtain ⟨next, hl⟩ := Errand.running?_eq_some.mp hr
  cases ho : e.told with
  | false => rfl
  | true =>
    obtain ⟨a, ha⟩ := h.ended e he ho
    cases hl.symm.trans ha

/-- What has a command run that ends a machine: work that has made the machine and can only fail now, or work to end
    it. -/
theorem Errand.Sound.ends (h : e.Sound b) (hr : e.running? = some command) (hends : command.Ends) :
    (∃ me vm id, e.order = .strand me (.backend (.provision vm)) ∧ command ∈ b.teardowns id ∧ id ∈ b.obtained e.talk ∧
        (e.told = false → e.Failing me.call)) ∨
      ∃ me machine, e.order = .strand me (.backend (.destroy machine)) ∧ command ∈ b.teardowns machine.id := by
  obtain ⟨order, talk, left, told⟩ := e
  obtain ⟨next, hl⟩ := Errand.running?_eq_some.mp hr
  have hl : left = Program.ask (.run command) next := hl
  have spared {α : Type} {left : Work α} {next : Except String Ended → Work α} {allowed : Ask → Prop}
      (h : left.Uses allowed) (hl : left = Program.ask (.run command) next) : allowed (.run command) := by
    subst hl
    exact h.1
  have tidy (left : Work (Except Failure Machine.Handle))
      {next : Except String Ended → Work (Except Failure Machine.Handle)} (h : Tidy b (b.obtained talk) left)
    (hl : left = Program.ask (.run command) next) :
      ∃ id ∈ b.obtained talk, command ∈ b.teardowns id ∧ left.Yields fun a => ∃ f, a = .error f := by
    subst hl
    exact h.1 hends
  cases order with
  | search n reference => exact absurd hends (spared h hl command rfl)
  | strand me request =>
    cases request with
    | connect address => exact absurd hends (spared h hl command rfl)
    | close connection => exact absurd hends (spared h hl command rfl)
    | backend request =>
      cases request with
      | provision vm =>
        obtain ⟨id, hid, hmem, hy⟩ := tidy left h hl
        exact .inl ⟨me, vm, id, rfl, hmem, hid, fun ho => ⟨rfl, ho, hy⟩⟩
      | destroy machine => exact .inr ⟨me, machine, rfl, spared h hl command rfl hends⟩
      | addresses machine => exact absurd hends (spared h hl command rfl)
      | state machine => exact absurd hends (spared h hl command rfl)

/-- A machine that a create was given was made by work for that create. -/
theorem Accounted.made (h : Accounted b log t) {n : Pods.Note} (hn : n ∈ log) {machine : Machine.Handle}
    (hm : n.deed.machine? = some machine) :
    ∃ e ∈ t.errands, e.told = true ∧ b.obtained e.talk = [machine.id] ∧
      ∃ me vm, e.order = .strand me (.backend (.provision vm)) ∧ me.call = n.strand.call := by
  obtain ⟨vm, hd⟩ := Pods.Deed.machine?_eq_some.mp hm
  obtain ⟨e, he, ho, horder, hgot⟩ := h.given n hn vm machine hd
  exact ⟨e, he, ho, hgot, n.strand, vm, horder, rfl⟩

/-- Work for which a machine was made is one, where no two machines were made with one id. -/
theorem eq_of_obtained {errands : List Errand} (hn : (obtained b errands).Nodup) {i k : Nat} {e e' : Errand}
    (he : errands[i]? = some e) (he' : errands[k]? = some e') (hid : id ∈ b.obtained e.talk)
    (hid' : id ∈ b.obtained e'.talk) : i = k := by
  have apart {i k : Nat} {e e' : Errand} (he : errands[i]? = some e) (he' : errands[k]? = some e')
      (hid : id ∈ b.obtained e.talk) (hid' : id ∈ b.obtained e'.talk) : ¬i < k := by
    intro hlt
    obtain ⟨hi, rfl⟩ := List.getElem?_eq_some_iff.mp he
    obtain ⟨hk, rfl⟩ := List.getElem?_eq_some_iff.mp he'
    exact List.pairwise_iff_getElem.mp (List.pairwise_flatMap.mp hn).2 i k hi hk hlt id hid id hid' rfl
  exact Nat.le_antisymm (Nat.not_lt.mp (apart he' he hid' hid)) (Nat.not_lt.mp (apart he he' hid hid'))

/-- A command that ends a machine is run for a machine that was made, and for a reason. -/
theorem Run.warranted (h : Run (.new b.backend connector now images) log t)
    (hi : ∀ i, images = some i → i.Offered) (he : e ∈ t.errands) (hr : e.running? = some command) (hends : command.Ends) :
    ∃ me request id, e.order = .strand me request ∧ command ∈ b.teardowns id ∧ id ∈ obtained b t.errands ∧
      Warrant b (.new b.backend.name b.backend.catalog now) log t me.call id := by
  have haccounted : Accounted b log t := h.accounted rfl rfl fun i himages => (hi i himages).spares
  have htended := h.tended rfl
  have hopen := haccounted.open_of_runs he hr
  obtain ⟨i, hei⟩ := List.getElem?_of_mem he
  obtain ⟨me, vm, id, horder, hmem, hid, hfailing⟩ | ⟨me, machine, horder, hmem⟩ :=
    (haccounted.sound e he).ends hr hends
  · -- The work for a create undoes what it has done.
    obtain ⟨c, p, hp, hasks⟩ := (htended.asks hei hopen horder).call
    obtain rfl := Pods.Point.of_asks_provision hasks
    obtain ⟨spec, suffix, rfl⟩ := h.pods.create_of_makes hp rfl
    have hdoomed : t.Doomed me.call := .failing hp he (hfailing hopen)
    exact ⟨me, _, id, horder, hmem, mem_obtained.mpr ⟨e, he, hid⟩,
      .undone hp he horder rfl hid fun more u hrun sandbox => (hrun.doomed htended hdoomed).call_ne⟩
  · have hwanted := h.pods.wanted (htended.asks hei hopen horder).1
    refine ⟨me, _, machine.id, horder, hmem, ?_⟩
    cases hwanted with
    | @discarded spec suffix why hp =>
      obtain ⟨n, hn, vm, hcall, hd⟩ := h.pods.given_of_discarding hp
      obtain ⟨e', he', -, hgot, you, vm', horder', hyou⟩ := haccounted.made hn (congrArg Pods.Deed.machine? hd)
      have hid : machine.id ∈ b.obtained e'.talk := hgot ▸ List.mem_singleton_self _
      exact ⟨mem_obtained.mpr ⟨e', he', hid⟩, .undone hp he' horder' (hyou.trans hcall) hid
        fun more u hrun sandbox => (hrun.doomed htended (.discarding hp)).call_ne⟩
    | @removed id i r hp hr hm hid =>
      subst hid
      obtain ⟨-, n, hn, hd, -⟩ := h.pods.given_of_origin (Pods.Store.origins_eq hr)
      obtain ⟨e', he', -, hgot, -⟩ := haccounted.made hn hd
      have hid : machine.id ∈ b.obtained e'.talk := by
        rw [hgot, ← hm]
        exact List.mem_singleton_self _
      exact ⟨mem_obtained.mpr ⟨e', he', hid⟩,
        .removed hp (h.pods.found (k := ⟨me.call, 0⟩) hp rfl rfl) hr (congrArg Machine.Handle.id hm)⟩

theorem Run.left_alone (h : Run (.new b.backend connector now images) log t)
    (hi : ∀ i, images = some i → i.Offered) (hn : (obtained b t.errands).Nodup) {n : Nat}
    (hp : t.shim.pods.calls[n]? = some ⟨.remove id, .finished (.ok ())⟩) (he : e ∈ t.errands)
    (hr : e.running? = some command) : command ∉ b.teardowns id := by
  intro hmem
  have haccounted : Accounted b log t := h.accounted rfl rfl fun i himages => (hi i himages).spares
  have hopen := haccounted.open_of_runs he hr
  obtain ⟨i, hei⟩ := List.getElem?_of_mem he
  obtain ⟨me, vm, id', horder, hmem', hid, -⟩ | ⟨me, machine, horder, hmem'⟩ :=
    (haccounted.sound e he).ends hr (Tooled.ends_of_mem_teardowns hmem)
  · -- The machine of the sandbox was made by work that is over.
    obtain rfl := Tooled.teardowns_inj hmem hmem'
    obtain ⟨k, r, hr, rfl, -⟩ := h.pods.removed_of_finished hp
    obtain ⟨hm, n, hn', hd, -⟩ := h.pods.given_of_origin (Pods.Store.origins_eq hr)
    obtain ⟨e', he', hover, hgot, -⟩ := haccounted.made hn' hd
    obtain ⟨j, hej⟩ := List.getElem?_of_mem he'
    have hid' : r.id ∈ b.obtained e'.talk := by
      rw [hgot, hm]
      exact List.mem_singleton_self _
    obtain rfl := eq_of_obtained hn hei hej hid hid'
    obtain rfl := Option.some.inj (hei.symm.trans hej)
    cases hopen.symm.trans hover
  · have hwanted := h.pods.wanted ((h.tended rfl).asks hei hopen horder).1
    exact h.pods.not_wanted_again (haccounted.fresh hn) hp hwanted (Tooled.teardowns_inj hmem' hmem)

end

/-- What the service does to machines. -/
structure Contained (b : Tooled) (now : Nat) (log : List Pods.Note) (t : Rig Answer) : Prop where
  /-- A command that ends a machine names one that was made before, and is run for a create that comes to no sandbox or
      for a remove that has found the machine's. -/
  warranted : ∀ e ∈ t.errands, ∀ command, e.running? = some command → command.Ends →
    ∃ me request id, e.order = .strand me request ∧ command ∈ b.teardowns id ∧ id ∈ obtained b t.errands ∧
      Warrant b (.new b.backend.name b.backend.catalog now) log t me.call id
  /-- Nothing is done for a call that gives an id before the id has led it to a record in the directory. -/
  led : ∀ e ∈ t.errands, ∀ me request, e.order = .strand me request →
    ∃ (c : Pods.Call) (p : Pods.Point c), t.shim.pods.calls[me.call]? = some ⟨c, p⟩ ∧ ∀ id, c.id? = some id →
      ∃ i, Pods.Found (.new b.backend.name b.backend.catalog now) log t.shim.pods me.call c id i
  /-- Nothing is done for a request that gives an id before the id has led its call to a record in the directory. -/
  unknown : ∀ {n : Nat} {job : Job Answer} {name : String} {r : Request} {id : String}, t.shim.jobs[n]? = some job →
    job.course = requested name r → r.Gives id → ∀ e ∈ t.errands, e.order.isFor n job = true →
      ∃ me request c i, e.order = .strand me request ∧
        Pods.Found (.new b.backend.name b.backend.catalog now) log t.shim.pods me.call c id i
  /-- A machine whose sandbox was removed is left alone, where no two machines were made with one id. -/
  once : (obtained b t.errands).Nodup → ∀ id, Removed t id → ∀ e ∈ t.errands, ∀ command, e.running? = some command →
    command ∉ b.teardowns id

theorem Run.contained {b : Tooled} {connector : Agent.Connector} {now : Nat} {images : Option Images} {t : Rig Answer}
    {log : List Pods.Note} (h : Run (.new b.backend connector now images) log t)
    (hi : ∀ i, images = some i → i.Offered) : Contained b now log t where
  warranted _ he _ hr hends := h.warranted hi he hr hends
  led := h.led
  unknown hj hc hr _ he hfor := h.unknown hj hc hr he hfor
  once := by
    intro hn id hremoved e he command hr
    cases hremoved with
    | call hp => exact h.left_alone hi hn hp he hr
    | request hj hc hl =>
      obtain ⟨k, hp⟩ := h.removed_of_answered hj hc hl
      exact h.left_alone hi hn hp he hr

/-- A session with pods of a provider by name ends no machine that it has not made, none for an id that leads nowhere,
    and none again once it has removed the machine's sandbox. Starting it ends none. -/
theorem machines_contained {setup : Setup} {name : String} (hpods : setup.pods = some name)
    {talk : Program.Talk Ask Ask.Reply} {backend : Backend} {images : Option Images}
    (hs : setup.startBoth.Leads talk (.done (.ok (backend, images)))) {now : Nat} {log : List Pods.Note} {t : Rig Answer}
    (h : Run (.new backend setup.connector now images) log t) :
    (∀ x ∈ talk, x.1.Spares) ∧ ∃ b : Tooled, b.backend = backend ∧ Contained b now log t := by
  obtain ⟨hspares, hyields⟩ := Setup.startBoth_starts hpods
  obtain ⟨⟨b, rfl⟩, hi⟩ := hs.yields hyields _ rfl
  exact ⟨hs.allowed hspares, b, rfl, h.contained hi⟩

end

/-! ### A run that ends machines -/

namespace Tour

/-- Pods of VirtualBox, and agents that are met. -/
def setup : Setup where
  files := Files.empty.put "virtualbox.json" (.file "\x7b\"net_device\":\"eth0\",\"vm_src\":\"base\"\x7d".toUTF8.toList)
  directory := "."
  script := .missing
  listings := []
  pods := some "virtualbox"
  catalog := none
  images := .absent
  integrate := false
  connector := .meeting
  agents := []

def tool : Tooled :=
  .virtualBox ⟨"eth0", "base", 300⟩

def first : Rig Answer :=
  .new tool.backend .meeting 0 none

def vm (n : UInt32) : Machine.Spec :=
  .forPod "" "" none n

def machine (n : UInt32) : Machine.Handle :=
  ⟨(vm n).name, (vm n).name⟩

/-- What a tool printed that ended well. -/
def prints (text : String) : Except String Ended :=
  .ok ⟨.exit 0, text.toUTF8.toList, []⟩

/-- An outside of which only the tool's reply matters. -/
def answer (command : Except String Ended) : (q : Ask) → q.Reply
  | .run _ => command
  | .clock => (0 : Nat)
  | .sleep _ | .hangUp _ => ()
  | .dial _ => .error ""
  | .meet _ => .ok 0
  | .cloud (.provision _) | .cloud (.destroy _) | .cloud (.addresses _) | .cloud (.state _) => .error Pods.Tour.down
  | .browse _ => []

/-- The `n`-th request is received, and starts its first call. -/
def receive (n : Nat) (r : Request) : List (Move Answer) :=
  [.shim (.receive (requested "virtualbox" r)), .shim (.proceed n)]

/-- The `k`-th call goes on. -/
def go (k times : Nat) : List (Move Answer) :=
  List.replicate times (.shim (.pods (.advance ⟨k, 0⟩)))

/-- Work is begun, as the `i`-th, and gets replies. -/
def begin (i : Nat) (o : Order) (replies : List (Except String Ended)) : List (Move Answer) :=
  .begin o :: replies.map fun reply => .reply i (answer reply)

/-- Work is begun and done. -/
def done (i : Nat) (o : Order) (replies : List (Except String Ended)) : List (Move Answer) :=
  begin i o replies ++ [.tell i]

/-- A create, the `n`-th request with the `k`-th call, begins with the replies of a tool to its making a machine. -/
def create (n k i : Nat) (suffix : UInt32) (replies : List (Except String Ended)) : List (Move Answer) :=
  receive n (.runPod (some {}) "") ++ [.shim (.hear n (.suffix suffix)), .shim (.proceed n)] ++ go k 1 ++
    begin i (.strand ⟨k, 0⟩ (.backend (.provision (vm suffix)))) replies

/-- A create that makes a sandbox. -/
def make (n k i : Nat) (suffix : UInt32) : List (Move Answer) :=
  create n k i suffix [prints "", prints "", prints ""] ++ [.tell i] ++
    done (i + 1) (.strand ⟨k, 0⟩ (.backend (.addresses (machine suffix)))) [prints "", prints "Value: 10.0.0.1"] ++
    done (i + 2) (.strand ⟨k, 0⟩ (.connect Pods.Tour.address)) [prints ""] ++ go k 2 ++ [.shim (.proceed n)]

/-- A remove that gets replies of a tool to its ending the machine. -/
def remove (n k i : Nat) (suffix : UInt32) (replies : List (Except String Ended)) : List (Move Answer) :=
  receive n (.removePod (vm suffix).name) ++ go k 4 ++
    begin i (.strand ⟨k, 0⟩ (.backend (.destroy (machine suffix)))) replies

/-- A remove that succeeds. -/
def drop (n k i : Nat) (suffix : UInt32) : List (Move Answer) :=
  remove n k i suffix [prints "", prints ""] ++ [.tell i] ++ done (i + 1) (.strand ⟨k, 0⟩ (.close 0)) [prints ""] ++
    go k 2 ++ [.shim (.proceed n)]

/-- Of two sandboxes the first is removed. Then a machine of a third cannot be started, and another remove begins. -/
def moves : List (Move Answer) :=
  make 0 0 0 1 ++ make 1 1 3 2 ++ drop 2 2 6 1 ++ create 3 3 8 3 [prints "", prints "", .error ""] ++
    remove 4 4 9 2 []

def log : List Pods.Note :=
  (first.played moves).1

def final : Rig Answer :=
  (first.played moves).2

theorem run : Run first log final :=
  run_played (by decide +kernel)

/-- The session starts with the tool that its file describes. -/
theorem started : setup.startBoth.Leads [] (.done (.ok (tool.backend, none))) := by
  have hload : Config.VirtualBox.form.load setup.files setup.directory = .ok ⟨"eth0", "base", 300⟩ :=
    eq_ok_of_toOption (by decide +kernel)
  have hstart : setup.startPods = .done (.ok tool.backend) := by
    have hprovider : setup.startPods = PodProvider.start setup.files setup.directory .virtualBox := rfl
    rw [hprovider]
    simp only [PodProvider.start, hload]
    rfl
  unfold Setup.startBoth
  rw [hstart]
  exact .rest

end Tour

/-- In the tour the machine of the removed sandbox is left alone, that of the failed create is deleted, and that of the
    other sandbox powered off. -/
theorem machines_contained_tour :
    (∃ b : Tooled, b.backend = Tour.tool.backend ∧ Contained b 0 Tour.log Tour.final) ∧
      obtained Tour.tool Tour.final.errands = ["vmpod-00000001", "vmpod-00000002", "vmpod-00000003"] ∧
      Tour.final.errands.filterMap Errand.running? =
        [⟨"VBoxManage", ["unregistervm", "vmpod-00000003", "--delete"]⟩,
          ⟨"VBoxManage", ["controlvm", "vmpod-00000002", "poweroff"]⟩] := by
  have hpods : Tour.setup.pods = some "virtualbox" := rfl
  obtain ⟨-, hcontained⟩ := machines_contained hpods Tour.started Tour.run
  exact ⟨hcontained, by decide +kernel, by decide +kernel⟩

end Rig
end PodMachines
