import Mathlib.Logic.Relation
import PodMachines.Agent.Request
import PodMachines.Proofs.Pods.Idle

/-! A call that goes on alone while no time passes, in an outside in which each machine and each agent answers by a
    state of its own. Main statement: what a call on one sandbox comes to, and what it makes of the store and of the
    outside, is a function of the sandbox's record, machine and agent. -/

namespace PodMachines.Pods
open Relation (ReflTransGen)

/-! ### The outside -/

/-- How machines and agents answer, each by its own state, and what becomes of that. -/
structure Manners (V G : Type) where
  state : V → Except Failure Machine.State × V
  destroy : V → Except Failure Unit × V
  close : G → G
  serve : (request : Agent.Request) → G → Except Failure request.Answer × G

/-- The states of machines and agents. -/
structure Outer (V G : Type) where
  machine : Machine.Handle → V
  agent : Connection → G

namespace Outer
variable {V G : Type}

def setMachine (o : Outer V G) (machine : Machine.Handle) (v : V) : Outer V G :=
  { o with machine := fun m => if m = machine then v else o.machine m }

def setAgent (o : Outer V G) (agent : Connection) (g : G) : Outer V G :=
  { o with agent := fun a => if a = agent then g else o.agent a }

@[simp] theorem setMachine_self (o : Outer V G) (machine : Machine.Handle) :
    o.setMachine machine (o.machine machine) = o := by
  unfold setMachine
  congr
  funext m
  by_cases hm : m = machine
  · rw [if_pos hm, hm]
  · rw [if_neg hm]

@[simp] theorem setAgent_self (o : Outer V G) (agent : Connection) : o.setAgent agent (o.agent agent) = o := by
  unfold setAgent
  congr
  funext a
  by_cases ha : a = agent
  · rw [if_pos ha, ha]
  · rw [if_neg ha]

end Outer

/-- What is answered to what the calls on one sandbox ask, and the outside after it. -/
def Manners.answer {V G : Type} (manners : Manners V G) (o : Outer V G) :
    (request : Request) → Option (request.Answer × Outer V G)
  | .backend (.state machine) =>
    some ((manners.state (o.machine machine)).1, o.setMachine machine (manners.state (o.machine machine)).2)
  | .backend (.destroy machine) =>
    some ((manners.destroy (o.machine machine)).1, o.setMachine machine (manners.destroy (o.machine machine)).2)
  | .close agent => some ((), o.setAgent agent (manners.close (o.agent agent)))
  | _ => none

/-! ### One call -/

/-- Where a call stands, what calls share, and the outside. -/
structure Scene (c : Call) (V G : Type) where
  point : Point c
  store : Store
  outer : Outer V G

/-- One step of the call of a number that goes on alone: a strand of it advances or is answered. -/
inductive Stride {V G : Type} (manners : Manners V G) (backend : String) (call : Nat) {c : Call} :
    Scene c V G → Scene c V G → Prop
  | advance {p q : Point c} {s t : Store} {o : Outer V G} (me : Strand) (hme : me.call = call)
      (h : p.advance me s = some (q, t)) : Stride manners backend call ⟨p, s, o⟩ ⟨q, t, o⟩
  | answer {p q : Point c} {s t : Store} {o o' : Outer V G} (me : Strand) {request : Request} {a : request.Answer}
      (hme : me.call = call) (hr : p.request? me s = some request) (ha : manners.answer o request = some (a, o'))
      (h : p.answer backend me s request a = some (q, t)) : Stride manners backend call ⟨p, s, o⟩ ⟨q, t, o'⟩

/-- A call that goes on alone comes to its end. -/
def Ends {V G : Type} (manners : Manners V G) (backend : String) (call : Nat) {c : Call} (x : Scene c V G)
    (result : c.Result) (t : Store) (o : Outer V G) : Prop :=
  ReflTransGen (Stride manners backend call) x ⟨.finished result, t, o⟩

section
variable {V G : Type} {manners : Manners V G} {backend : String} {call : Nat} {c : Call} {s t : Store} {o o' : Outer V G}
  {result : c.Result} {y : Scene c V G}

theorem stride_finished (r : c.Result) : ¬Stride manners backend call ⟨.finished r, s, o⟩ y := by
  intro h
  cases h with
  | advance me hme h => cases c <;> cases h
  | answer me hme hr ha h => cases hr

theorem ends_finished {r : c.Result} :
    Ends manners backend call ⟨.finished r, s, o⟩ result t o' ↔ result = r ∧ t = s ∧ o' = o := by
  constructor
  · intro h
    rcases h.cases_head with heq | ⟨y, hy, -⟩
    · cases heq
      exact ⟨rfl, rfl, rfl⟩
    · exact absurd hy (stride_finished r)
  · rintro ⟨rfl, rfl, rfl⟩
    exact .refl

theorem ends_iff_stride {p : Point c} (hp : p.ended = false) :
    Ends manners backend call ⟨p, s, o⟩ result t o' ↔
      ∃ y, Stride manners backend call ⟨p, s, o⟩ y ∧ Ends manners backend call y result t o' := by
  constructor
  · intro h
    rcases h.cases_head with heq | ⟨y, hy, h⟩
    · obtain rfl : p = .finished result := congrArg Scene.point heq
      cases hp
    · exact ⟨y, hy, h⟩
  · rintro ⟨y, hy, h⟩
    exact .head hy h

/-! ### In the directory -/

theorem ends_entering {v : Visit} : Ends manners backend call ⟨.entering v, s, o⟩ result t o' ↔
    ∃ g, s.guard.enter v = some g ∧ Ends manners backend call ⟨.inside v, { s with guard := g }, o⟩ result t o' := by
  rw [ends_iff_stride (p := .entering v) rfl]
  constructor
  · rintro ⟨y, hy, h⟩
    cases hy with
    | advance me hme hq =>
      simp only [Point.advance, Option.map_eq_some_iff] at hq
      obtain ⟨g, hg, hq⟩ := hq
      cases hq
      exact ⟨g, hg, h⟩
    | answer me hme hr ha hq => cases hr
  · rintro ⟨g, hg, h⟩
    refine ⟨_, .advance ⟨call, 0⟩ rfl ?_, h⟩
    simp only [Point.advance, hg, Option.map_some]

theorem ends_inside {v : Visit} : Ends manners backend call ⟨.inside v, s, o⟩ result t o' ↔
    ∃ q u, Point.visit s.left c v = some (q, u) ∧ Ends manners backend call ⟨q, u, o⟩ result t o' := by
  rw [ends_iff_stride (p := .inside v) rfl]
  constructor
  · rintro ⟨y, hy, h⟩
    cases hy with
    | advance me hme hq =>
      simp only [Point.advance] at hq
      exact ⟨_, _, hq, h⟩
    | answer me hme hr ha hq => cases hr
  · rintro ⟨q, u, hq, h⟩
    refine ⟨_, .advance ⟨call, 0⟩ rfl ?_, h⟩
    simp only [Point.advance]
    exact hq

theorem ends_visit {v : Visit} : Ends manners backend call ⟨.entering v, s, o⟩ result t o' ↔
    (∃ g, s.guard.enter v = some g) ∧
      ∃ q u, Point.visit s c v = some (q, u) ∧ Ends manners backend call ⟨q, u, o⟩ result t o' := by
  have left {g : Guard} (hg : s.guard.enter v = some g) : Store.left { s with guard := g } = s := by
    rw [Store.left, (Guard.visitors_of_enter hg).2]
  rw [ends_entering]
  constructor
  · rintro ⟨g, hg, h⟩
    rw [ends_inside, left hg] at h
    exact ⟨⟨g, hg⟩, h⟩
  · rintro ⟨⟨g, hg⟩, h⟩
    refine ⟨g, hg, ?_⟩
    rw [ends_inside, left hg]
    exact h

theorem Guard.enter_lookup_iff {g : Guard} : (∃ g', g.enter .lookup = some g') ↔ g ≠ .writer := by
  constructor
  · rintro ⟨g', h⟩ rfl
    cases h
  · exact Guard.enter_lookup

theorem Guard.ne_writer {g : Guard} (h : g = .free) : g ≠ .writer := by
  rintro rfl
  cases h

theorem Guard.enter_forget_iff {g : Guard} {id : String} {i : Nat} :
    (∃ g', g.enter (.forget id i) = some g') ↔ g = .free := by
  constructor
  · rintro ⟨g', h⟩
    cases g <;> simp [enter, Visit.writes] at h ⊢
  · rintro rfl
    exact ⟨_, rfl⟩

/-- A call that looks into the directory first is let in if no writer is there, and goes on from what it finds. -/
theorem ends_initial {result : c.Result} {q : Point c} (hc : Point.initial c = .entering .lookup)
    (hv : Point.visit s c .lookup = some (q, s)) : Ends manners backend call ⟨.initial c, s, o⟩ result t o' ↔
      s.guard ≠ .writer ∧ Ends manners backend call ⟨q, s, o⟩ result t o' := by
  rw [hc, ends_visit, Guard.enter_lookup_iff]
  refine and_congr_right fun _ => ?_
  constructor
  · rintro ⟨q', u, hq, h⟩
    cases hv.symm.trans hq
    exact h
  · exact fun h => ⟨q, s, hv, h⟩

/-! ### At a record -/

theorem Store.Placed.record {id : String} {i : Nat} (hp : s.Placed) (hi : s.directory.find? id = some i) :
    ∃ r, s.records[i]? = some r ∧ r.id = id := by
  obtain ⟨b, hb, hid⟩ := hp id i hi
  obtain ⟨r, hr, rfl⟩ := Option.map_eq_some_iff.mp hb
  exact ⟨r, hr, hid⟩

/-- A record whose lock a strand has, and nobody waits for. -/
def Record.taken (r : Record) (me : Strand) : Record :=
  { r with lock := ⟨some me, []⟩ }

theorem Record.taken_released {r : Record} (hr : r.lock = .free) (me : Strand) : (r.taken me).released = r := by
  obtain ⟨⟩ := r
  obtain rfl : _ = Lock.free := hr
  rfl

theorem Record.taken_downgraded (r : Record) (me : Strand) : (r.taken me).downgraded = r.downgraded.taken me := by
  unfold downgraded
  by_cases h : r.sample.isRunning = true
  · rw [if_pos h, if_pos (show (r.taken me).sample.isRunning = true from h)]
  · rw [if_neg h, if_neg (show ¬(r.taken me).sample.isRunning = true from h)]
    rfl

theorem Store.put_put (s : Store) (i : Nat) (r r' : Record) : (s.put i r).put i r' = s.put i r' := by
  simp only [put, List.set_set]

theorem Store.put_self {s : Store} {i : Nat} {r : Record} (h : s.records[i]? = some r) : s.put i r = s := by
  rw [put, ← set_self h]

theorem Store.put_getElem? {s : Store} {i : Nat} {r : Record} (h : s.records[i]? = some r) (r' : Record) :
    (s.put i r').records[i]? = some r' :=
  List.getElem?_set_self (List.getElem?_eq_some_iff.mp h).1

/-- Nobody of a call that is yet to start is at a lock. -/
def Store.Fair (s : Store) (call : Nat) : Prop :=
  ∀ {i : Nat} {r : Record}, s.records[i]? = some r → r.lock.Fair call

theorem Store.requestLock_eq {s : Store} {i : Nat} {r : Record} (hr : s.records[i]? = some r) (hl : r.lock = .free)
    (me : Strand) : s.requestLock i me = s.put i (r.taken me) := by
  rw [requestLock, modify_eq_put hr, hl]
  rfl

/-- A call that goes on alone gets the lock that it asks for only if nobody has it. -/
theorem Store.held?_requestLock {me you : Strand} {i : Nat} {r : Record} (hf : s.Fair call) (hyou : you.call = call)
    (h : (s.requestLock i me).held? i you = some r) :
    ∃ r₀, s.records[i]? = some r₀ ∧ r₀.lock = .free ∧ r = r₀.taken me ∧ you = me := by
  obtain ⟨hr, hl⟩ := held?_eq_some.mp h
  simp only [requestLock, modify, List.getElem?_modify, if_pos] at hr
  obtain ⟨r₀, hr₀, rfl⟩ := Option.map_eq_some_iff.mp hr
  have hfair := hf hr₀
  simp only at hl
  cases hholder : r₀.lock.holder with
  | none =>
    obtain ⟨hfree, hrequest⟩ := hfair.request_of_holder hholder me
    rw [hrequest] at hl ⊢
    exact ⟨r₀, hr₀, hfree, rfl, (Option.some.inj hl).symm⟩
  | some other =>
    have hmem : other ∈ r₀.lock.strands := by simp [Lock.strands, hholder]
    have hother : (r₀.lock.request me).holder = some other := by simp [Lock.request, hholder]
    obtain rfl := Option.some.inj (hother.symm.trans hl)
    exact absurd (hfair.begun _ hmem) (by omega)

theorem Store.held?_taken {i : Nat} {r : Record} (hr : s.records[i]? = some r) (me : Strand) :
    (s.put i (r.taken me)).held? i me = some (r.taken me) :=
  held?_eq_some.mpr ⟨put_getElem? hr _, rfl⟩

theorem ends_arriving {i : Nat} (hf : s.Fair call) : Ends manners backend call ⟨.arriving i, s, o⟩ result t o' ↔
    ∃ me r q u, me.call = call ∧ s.records[i]? = some r ∧ r.lock = .free ∧
      Point.locked (s.put i (r.taken me)) i (r.taken me) c = some (q, u) ∧
        Ends manners backend call ⟨q, u, o⟩ result t o' := by
  rw [ends_iff_stride (p := .arriving i) rfl]
  constructor
  · rintro ⟨y, hy, h⟩
    cases hy with
    | advance me hme hq =>
      simp only [Point.advance, Option.some.injEq, Prod.mk.injEq] at hq
      obtain ⟨rfl, rfl⟩ := hq
      rw [ends_iff_stride (p := .queued i) rfl] at h
      obtain ⟨y, hy, h⟩ := h
      cases hy with
      | advance you hyou hq =>
        simp only [Point.advance] at hq
        split at hq
        · rename_i r hheld
          obtain ⟨r₀, hr₀, hfree, rfl, rfl⟩ := Store.held?_requestLock hf hyou hheld
          rw [Store.requestLock_eq hr₀ hfree] at hq
          exact ⟨_, r₀, _, _, hyou, hr₀, hfree, hq, h⟩
        · cases hq
      | answer you hyou hr ha hq => cases hr
    | answer me hme hr ha hq => cases hr
  · rintro ⟨me, r, q, u, hme, hr, hfree, hq, h⟩
    refine ⟨⟨.queued i, s.requestLock i me, o⟩, .advance me hme ?_, ?_⟩
    · simp only [Point.advance]
    · rw [Store.requestLock_eq hr hfree, ends_iff_stride (p := .queued i) rfl]
      refine ⟨_, .advance me hme ?_, h⟩
      simp only [Point.advance, Store.held?_taken hr]
      exact hq

theorem ends_destroying {id : String} {i : Nat} {r : Record} {result : Except Failure Unit}
    (hr : s.records[i]? = some r) :
    Ends manners backend call (c := .remove id) ⟨.destroying i, s, o⟩ result t o' ↔
      ((manners.destroy (o.machine r.machine)).1 = .ok () ∧ Ends manners backend call (c := .remove id)
          ⟨.closing i, s, o.setMachine r.machine (manners.destroy (o.machine r.machine)).2⟩ result t o') ∨
        ∃ f, (manners.destroy (o.machine r.machine)).1 = .error f ∧ result = .error (f.asDestroy id) ∧
          t = s.put i r.released ∧ o' = o.setMachine r.machine (manners.destroy (o.machine r.machine)).2 := by
  rw [ends_iff_stride (p := .destroying i) rfl]
  have hask (me : Strand) : (Point.destroying i : Point (.remove id)).request? me s =
      some (.backend (.destroy r.machine)) := by
    simp only [Point.request?, hr, Option.map_some]
  constructor
  · rintro ⟨y, hy, h⟩
    cases hy with
    | advance me hme hq => cases hq
    | answer me hme hrequest ha hq =>
      obtain rfl := Option.some.inj ((hask _).symm.trans hrequest)
      simp only [Manners.answer, Option.some.injEq, Prod.mk.injEq] at ha
      obtain ⟨rfl, rfl⟩ := ha
      cases hd : (manners.destroy (o.machine r.machine)).1 with
      | ok u =>
        rw [hd] at hq
        cases hq
        exact .inl ⟨rfl, h⟩
      | error f =>
        rw [hd] at hq
        simp only [Point.answer, Option.some.injEq, Prod.mk.injEq, Store.modify_eq_put hr] at hq
        obtain ⟨rfl, rfl⟩ := hq
        obtain ⟨rfl, rfl, rfl⟩ := ends_finished.mp h
        exact .inr ⟨f, rfl, rfl, rfl, rfl⟩
  · have goes {q : Point (.remove id)} {u : Store}
        (hq : (Point.destroying i : Point (.remove id)).answer backend ⟨call, 0⟩ s (.backend (.destroy r.machine))
          (manners.destroy (o.machine r.machine)).1 = some (q, u)) :
        Stride manners backend call (c := .remove id) ⟨.destroying i, s, o⟩
          ⟨q, u, o.setMachine r.machine (manners.destroy (o.machine r.machine)).2⟩ :=
      .answer ⟨call, 0⟩ rfl (hask _) rfl hq
    rintro (⟨hd, h⟩ | ⟨f, hd, rfl, rfl, rfl⟩)
    · refine ⟨_, goes ?_, h⟩
      rw [hd]
      rfl
    · refine ⟨_, goes ?_, ends_finished.mpr ⟨rfl, rfl, rfl⟩⟩
      rw [hd]
      simp only [Point.answer, Store.modify_eq_put hr]

theorem ends_closing {id : String} {i : Nat} {r : Record} {result : Except Failure Unit}
    (hr : s.records[i]? = some r) :
    Ends manners backend call (c := .remove id) ⟨.closing i, s, o⟩ result t o' ↔
      Ends manners backend call (c := .remove id) ⟨.entering (.forget id i),
        s.put i { r with removed := true }.released, o.setAgent r.agent (manners.close (o.agent r.agent))⟩
        result t o' := by
  rw [ends_iff_stride (p := .closing i) rfl]
  have hask (me : Strand) : (Point.closing i : Point (.remove id)).request? me s = some (.close r.agent) := by
    simp only [Point.request?, hr, Option.map_some]
  constructor
  · rintro ⟨y, hy, h⟩
    cases hy with
    | advance me hme hq => cases hq
    | answer me hme hrequest ha hq =>
      obtain rfl := Option.some.inj ((hask _).symm.trans hrequest)
      simp only [Manners.answer, Option.some.injEq, Prod.mk.injEq] at ha
      obtain ⟨-, rfl⟩ := ha
      simp only [Point.answer, Option.some.injEq, Prod.mk.injEq, Store.modify_eq_put hr] at hq
      obtain ⟨rfl, rfl⟩ := hq
      exact h
  · intro h
    refine ⟨_, .answer ⟨call, 0⟩ rfl (hask _) rfl ?_, h⟩
    simp only [Point.answer, Store.modify_eq_put hr]

/-! ### Checks -/

/-- A record after a check that found its machine so, if it asked. -/
def Record.refreshed (r : Record) (now : Nat) (found : Except Failure Machine.State) : Record :=
  match r.isStale now, found with
  | true, .ok sample => (r.sampled sample now).downgraded
  | _, _ => r.downgraded

theorem Record.refreshed_of_fresh {r : Record} {now : Nat} (hs : r.isStale now = false)
    (found : Except Failure Machine.State) : r.refreshed now found = r.downgraded := by
  simp only [refreshed, hs]

/-- One step of a check that goes on alone. -/
inductive Check.Stride {V G : Type} (manners : Manners V G) (me : Strand) (check : Check) (s : Store) (o : Outer V G) :
    Check → Store → Outer V G → Prop
  | advance {next : Check} {t : Store} (h : check.advance me s = some (next, t)) : Stride manners me check s o next t o
  | answer {next : Check} {t : Store} {request : Request} {a : request.Answer} {o' : Outer V G}
      (hr : check.request? s = some request) (ha : manners.answer o request = some (a, o'))
      (h : check.answer s request a = some (next, t)) : Stride manners me check s o next t o'

theorem stride_checking {id : String} {check : Check} {y : Scene (.status id) V G} :
    Stride manners backend call ⟨.checking check, s, o⟩ y ↔ ∃ me next t o', me.call = call ∧
      check.Stride manners me s o next t o' ∧ y = ⟨Point.ofCheck id next, t, o'⟩ := by
  constructor
  · intro h
    cases h with
    | advance me hme h =>
      simp only [Point.advance, Option.map_eq_some_iff] at h
      obtain ⟨⟨next, u⟩, h, heq⟩ := h
      cases heq
      exact ⟨_, _, _, _, hme, .advance h, rfl⟩
    | answer me hme hr ha h =>
      simp only [Point.answer, Option.map_eq_some_iff] at h
      obtain ⟨⟨next, u⟩, h, heq⟩ := h
      cases heq
      exact ⟨_, _, _, _, hme, .answer hr ha h, rfl⟩
  · rintro ⟨me, next, t, o', hme, h, rfl⟩
    cases h with
    | advance h =>
      refine .advance me hme ?_
      simp only [Point.advance, h, Option.map_some]
    | answer hr ha h =>
      refine .answer me hme hr ha ?_
      simp only [Point.answer, h, Option.map_some]

theorem ends_checking {id : String} {check : Check} {result : Except Failure Sandbox.Status} (hc : check.report? = none) :
    Ends manners backend call (c := .status id) ⟨Point.ofCheck id check, s, o⟩ result t o' ↔
      ∃ me next u p, me.call = call ∧ check.Stride manners me s o next u p ∧
        Ends manners backend call (c := .status id) ⟨Point.ofCheck id next, u, p⟩ result t o' := by
  have hpoint : Point.ofCheck id check = .checking check := by rw [Point.ofCheck, hc]
  rw [hpoint, ends_iff_stride (p := .checking check) rfl]
  constructor
  · rintro ⟨y, hy, h⟩
    obtain ⟨me, next, u, p, hme, hstride, rfl⟩ := stride_checking.mp hy
    exact ⟨me, next, u, p, hme, hstride, h⟩
  · rintro ⟨me, next, u, p, hme, hstride, h⟩
    exact ⟨_, stride_checking.mpr ⟨me, next, u, p, hme, hstride, rfl⟩, h⟩

theorem stride_gathering {filter : Sandbox.Filter} {checks : List Check} {y : Scene (.list filter) V G} :
    Stride manners backend call ⟨.gathering checks, s, o⟩ y ↔ ∃ k check next t o', checks[k]? = some check ∧
      check.Stride manners ⟨call, k⟩ s o next t o' ∧ y = ⟨Point.ofChecks filter (checks.set k next), t, o'⟩ := by
  constructor
  · intro h
    cases h with
    | advance me hme h =>
      obtain ⟨n, k⟩ := me
      obtain rfl : n = call := hme
      simp only [Point.advance] at h
      split at h
      · rename_i check hc
        obtain ⟨⟨next, u⟩, hn, heq⟩ := Option.map_eq_some_iff.mp h
        cases heq
        exact ⟨k, check, _, _, _, hc, .advance hn, rfl⟩
      · cases h
    | answer me hme hr ha h =>
      obtain ⟨n, k⟩ := me
      obtain rfl : n = call := hme
      simp only [Point.answer] at h
      split at h
      · rename_i check hc
        simp only [Point.request?, hc, Option.bind_some] at hr
        obtain ⟨⟨next, u⟩, hn, heq⟩ := Option.map_eq_some_iff.mp h
        cases heq
        exact ⟨k, check, _, _, _, hc, .answer hr ha hn, rfl⟩
      · cases h
  · rintro ⟨k, check, next, t, o', hc, h, rfl⟩
    cases h with
    | advance h =>
      refine .advance ⟨call, k⟩ rfl ?_
      simp only [Point.advance, hc, h, Option.map_some]
    | answer hr ha h =>
      refine .answer ⟨call, k⟩ rfl ?_ ha ?_
      · simp only [Point.request?, hc, Option.bind_some]
        exact hr
      · simp only [Point.answer, hc, h, Option.map_some]

section
variable {me : Strand} {i : Nat} {r : Record} {next : Check}

theorem Check.stride_arriving :
    Check.Stride manners me (.arriving i) s o next t o' ↔ next = .queued i ∧ t = s.requestLock i me ∧ o' = o := by
  constructor
  · intro h
    cases h with
    | advance h =>
      cases h
      exact ⟨rfl, rfl, rfl⟩
    | answer hr ha h => cases hr
  · rintro ⟨rfl, rfl, rfl⟩
    exact .advance rfl

/-- A check that has the lock refuses a removed record, asks if the sample is old, and else reports. -/
theorem Check.stride_queued (hr : s.records[i]? = some (r.taken me)) (hfree : r.lock = .free) :
    Check.Stride manners me (.queued i) s o next t o' ↔ o' = o ∧
      ((r.removed = true ∧ next = .settled none ∧ t = s.put i r) ∨
        (r.removed = false ∧ r.isStale s.now = true ∧ next = .refreshing i ∧ t = s) ∨
        (r.removed = false ∧ r.isStale s.now = false ∧ next = .settled (some r.downgraded.snapshot) ∧
          t = s.put i r.downgraded)) := by
  have hfree' : r.downgraded.lock = .free := r.downgraded_lock.trans hfree
  have hadvance : Check.advance me s (.queued i) =
      if r.removed then some (.settled none, s.put i r)
      else if r.isStale s.now then some (.refreshing i, s)
      else some (.settled (some r.downgraded.snapshot), s.put i r.downgraded) := by
    have hheld : s.held? i me = some (r.taken me) := Store.held?_eq_some.mpr ⟨hr, rfl⟩
    simp only [Check.advance, hheld, Check.settle, Store.modify_eq_put hr, Record.taken_released hfree,
      Record.taken_downgraded, Record.taken_released hfree']
    rfl
  constructor
  · intro h
    cases h with
    | advance h =>
      rw [hadvance] at h
      refine ⟨rfl, ?_⟩
      cases hd : r.removed with
      | true =>
        rw [hd] at h
        cases h
        exact .inl ⟨rfl, rfl, rfl⟩
      | false =>
        cases hs : r.isStale s.now with
        | true =>
          rw [hd, hs] at h
          cases h
          exact .inr (.inl ⟨rfl, rfl, rfl, rfl⟩)
        | false =>
          rw [hd, hs] at h
          cases h
          exact .inr (.inr ⟨rfl, rfl, rfl, rfl⟩)
    | answer hr ha h => cases hr
  · rintro ⟨rfl, ⟨hd, rfl, rfl⟩ | ⟨hd, hs, rfl, rfl⟩ | ⟨hd, hs, rfl, rfl⟩⟩
    · refine .advance ?_
      rw [hadvance, hd]
      rfl
    · refine .advance ?_
      rw [hadvance, hd, hs]
      rfl
    · refine .advance ?_
      rw [hadvance, hd, hs]
      rfl

theorem Check.stride_refreshing {you : Strand} (hr : s.records[i]? = some (r.taken you)) (hfree : r.lock = .free)
    (hs : r.isStale s.now = true) :
    Check.Stride manners me (.refreshing i) s o next t o' ↔
      next = .settled (some (r.refreshed s.now (manners.state (o.machine r.machine)).1).snapshot) ∧
        t = s.put i (r.refreshed s.now (manners.state (o.machine r.machine)).1) ∧
          o' = o.setMachine r.machine (manners.state (o.machine r.machine)).2 := by
  have hask : (Check.refreshing i).request? s = some (.backend (.state r.machine)) := by
    simp only [Check.request?, hr, Option.map_some]
    rfl
  have hanswer (a : Except Failure Machine.State) : (Check.refreshing i).answer s (.backend (.state r.machine)) a =
      some (.settled (some (r.refreshed s.now a).snapshot), s.put i (r.refreshed s.now a)) := by
    cases a with
    | ok sample =>
      have hfree' : (r.sampled sample s.now).downgraded.lock = .free := (Record.downgraded_lock _).trans hfree
      have htaken : (r.taken you).sampled sample s.now = (r.sampled sample s.now).taken you := rfl
      simp only [Check.answer, hr, Check.settle, Store.modify_eq_put hr, htaken, Record.taken_downgraded,
        Record.taken_released hfree', Record.refreshed, hs]
      rfl
    | error f =>
      have hfree' : r.downgraded.lock = .free := r.downgraded_lock.trans hfree
      simp only [Check.answer, hr, Check.settle, Store.modify_eq_put hr, Record.taken_downgraded,
        Record.taken_released hfree', Record.refreshed, hs]
      rfl
  constructor
  · intro h
    cases h with
    | advance h => cases h
    | answer hrequest ha h =>
      rename_i request a
      obtain rfl := Option.some.inj (hask.symm.trans hrequest)
      simp only [Manners.answer, Option.some.injEq, Prod.mk.injEq] at ha
      obtain ⟨rfl, rfl⟩ := ha
      rw [hanswer] at h
      cases h
      exact ⟨rfl, rfl, rfl⟩
  · rintro ⟨rfl, rfl, rfl⟩
    exact .answer hask rfl (hanswer _)

end

end
end PodMachines.Pods
