import PodMachines.Proofs.Pods.Alone
import PodMachines.Proofs.Pods.Question

/-! What a call on one sandbox makes of it when it goes on alone: a function of the sandbox's record, machine and
    agent. Main statements: the call comes to its end so, and so only, and what is done to two sandboxes that share
    neither machine nor agent may be done in either order. -/

namespace PodMachines.Pods

/-- What something done to a sandbox comes to, and what it makes of the record, the machine and the agent. -/
structure Deal (α V G : Type) where
  result : α
  record : Record
  machine : V
  agent : G
  /-- Whether the sandbox stays in the directory. -/
  kept : Bool

/-- What is done to one sandbox: what it comes to if there is none, whether it needs the record's lock, and what it makes
    of the sandbox at a time. -/
structure Treatment (α V G : Type) where
  gone : α
  locks : Bool
  deal : Nat → Record → V → G → Deal α V G

/-- What a call does to the sandbox that it is for. -/
def Call.treatment? {V G : Type} (manners : Manners V G) : (c : Call) → Option (Treatment c.Result V G)
  | .stop id => some ⟨Point.missing id, true, fun _ r v g =>
    if r.removed then ⟨Point.missing id, r, v, g, true⟩
    else ⟨.ok (), { r with lifecycle := .notReady }, v, g, true⟩⟩
  | .remove id => some ⟨Point.missing id, true, fun _ r v g =>
    if r.removed then ⟨Point.missing id, r, v, g, true⟩
    else match manners.destroy v with
      | (.ok (), v) => ⟨.ok (), { r with removed := true }, v, manners.close g, false⟩
      | (.error f, v) => ⟨.error (f.asDestroy id), r, v, g, true⟩⟩
  | .status id => some ⟨Point.missing id, true, fun now r v g =>
    if r.removed then ⟨Point.missing id, r, v, g, true⟩
    else ⟨.ok (r.refreshed now (manners.state v).1).snapshot, r.refreshed now (manners.state v).1,
      if r.isStale now then (manners.state v).2 else v, g, true⟩⟩
  | .agent id => some ⟨Point.missing id, false, fun _ r v g => ⟨.ok r.agent, r, v, g, true⟩⟩
  | _ => none

section
variable {α V G : Type}

/-- With what was made of the sandbox of an id. -/
def Store.dealt (s : Store) (id : String) (i : Nat) (d : Deal α V G) : Store :=
  { s.put i d.record with directory := if d.kept then s.directory else s.directory.erase id }

def Outer.dealt (o : Outer V G) (r : Record) (d : Deal α V G) : Outer V G :=
  (o.setMachine r.machine d.machine).setAgent r.agent d.agent

theorem Store.dealt_of_kept {d : Deal α V G} (h : d.kept = true) (s : Store) (id : String) (i : Nat) :
    s.dealt id i d = s.put i d.record := by
  rw [dealt, if_pos h]
  rfl

theorem Store.dealt_of_dropped {d : Deal α V G} (h : d.kept = false) (s : Store) (id : String) (i : Nat) :
    s.dealt id i d = { s.put i d.record with directory := s.directory.erase id } := by
  rw [dealt, h]
  rfl

theorem Outer.dealt_of_agent {o : Outer V G} {r : Record} {d : Deal α V G} (hg : d.agent = o.agent r.agent) :
    o.dealt r d = o.setMachine r.machine d.machine := by
  rw [dealt, hg]
  exact (o.setMachine r.machine d.machine).setAgent_self r.agent

theorem Outer.dealt_self {o : Outer V G} {r : Record} {d : Deal α V G} (hv : d.machine = o.machine r.machine)
    (hg : d.agent = o.agent r.agent) : o.dealt r d = o := by
  rw [dealt_of_agent hg, hv, setMachine_self]

end

/-- What is done to the sandbox of an id comes to an end, and store and outside are so then. -/
inductive Treatment.Outcome {α V G : Type} (x : Treatment α V G) (id : String) (s : Store) (o : Outer V G) :
    α → Store → Outer V G → Prop
  | missing (hg : s.guard ≠ .writer) (hi : s.directory.find? id = none) : Outcome x id s o x.gone s o
  | found {i : Nat} {r : Record} {d : Deal α V G} (hg : s.guard ≠ .writer) (hi : s.directory.find? id = some i)
      (hr : s.records[i]? = some r) (hd : d = x.deal s.now r (o.machine r.machine) (o.agent r.agent))
      (hl : x.locks = true → r.lock = .free) (hk : d.kept = false → s.guard = .free) :
      Outcome x id s o d.result (s.dealt id i d) (o.dealt r d)

section
variable {V G : Type} {manners : Manners V G} {backend : String} {call : Nat} {c : Call} {s t : Store} {o o' : Outer V G}
  {id : String} {i : Nat} {r : Record}

/-! ### Once the lock is there -/

theorem Point.locked_stop {me : Strand} (hr : s.records[i]? = some r) (hfree : r.lock = .free) :
    Point.locked (s.put i (r.taken me)) i (r.taken me) (.stop id) =
      if r.removed then some (.finished (Point.missing id), s)
      else some (.finished (.ok ()), s.put i { r with lifecycle := .notReady }) := by
  have hput := Store.put_getElem? hr (r.taken me)
  have hstopped : ({ r.taken me with lifecycle := .notReady } : Record).released = { r with lifecycle := .notReady } :=
    Record.taken_released (r := { r with lifecycle := .notReady }) hfree me
  simp only [locked, Store.modify_eq_put hput, Store.put_put, Record.taken_released hfree, Store.put_self hr, hstopped]
  rfl

theorem Point.locked_remove {me : Strand} (hr : s.records[i]? = some r) (hfree : r.lock = .free) :
    Point.locked (s.put i (r.taken me)) i (r.taken me) (.remove id) =
      if r.removed then some (.finished (Point.missing id), s) else some (.destroying i, s.put i (r.taken me)) := by
  have hput := Store.put_getElem? hr (r.taken me)
  simp only [locked, Store.modify_eq_put hput, Store.put_put, Record.taken_released hfree, Store.put_self hr]
  rfl

theorem ends_stop {result : Except Failure Unit} (hf : s.Fair call) (hr : s.records[i]? = some r) :
    Ends manners backend call (c := .stop id) ⟨.arriving i, s, o⟩ result t o' ↔ r.lock = .free ∧
      ((r.removed = true ∧ result = Point.missing id ∧ t = s ∧ o' = o) ∨
        (r.removed = false ∧ result = .ok () ∧ t = s.put i { r with lifecycle := .notReady } ∧ o' = o)) := by
  rw [ends_arriving hf]
  constructor
  · rintro ⟨me, r', q, u, -, hr', hfree, hq, h⟩
    cases hr.symm.trans hr'
    rw [Point.locked_stop hr hfree] at hq
    refine ⟨hfree, ?_⟩
    cases hd : r.removed with
    | true =>
      rw [hd] at hq
      cases hq
      exact .inl ⟨rfl, ends_finished.mp h⟩
    | false =>
      rw [hd] at hq
      cases hq
      exact .inr ⟨rfl, ends_finished.mp h⟩
  · rintro ⟨hfree, h⟩
    refine ⟨⟨call, 0⟩, r, .finished result, t, rfl, hr, hfree, ?_, ends_finished.mpr ⟨rfl, rfl, ?_⟩⟩
    · rw [Point.locked_stop hr hfree]
      rcases h with ⟨hd, rfl, rfl, -⟩ | ⟨hd, rfl, rfl, -⟩ <;> rw [hd] <;> rfl
    · rcases h with ⟨-, -, -, ho⟩ | ⟨-, -, -, ho⟩ <;> exact ho

/-- A remove that has the lock destroys the machine, and if it could, closes the agent and takes the sandbox from the
    directory. -/
theorem ends_remove {result : Except Failure Unit} (hf : s.Fair call) (hi : s.directory.find? id = some i)
    (hr : s.records[i]? = some r) :
    Ends manners backend call (c := .remove id) ⟨.arriving i, s, o⟩ result t o' ↔ r.lock = .free ∧
      ((r.removed = true ∧ result = Point.missing id ∧ t = s ∧ o' = o) ∨
        (r.removed = false ∧
          (((manners.destroy (o.machine r.machine)).1 = .ok () ∧ s.guard = .free ∧ result = .ok () ∧
              t = { s.put i { r with removed := true } with directory := s.directory.erase id } ∧
              o' = (o.setMachine r.machine (manners.destroy (o.machine r.machine)).2).setAgent r.agent
                (manners.close (o.agent r.agent))) ∨
            ∃ f, (manners.destroy (o.machine r.machine)).1 = .error f ∧ result = .error (f.asDestroy id) ∧ t = s ∧
              o' = o.setMachine r.machine (manners.destroy (o.machine r.machine)).2))) := by
  rw [ends_arriving hf]
  have forgotten {u : Store} {p : Outer V G} : Ends manners backend call (c := .remove id)
      ⟨.entering (.forget id i), s.put i { r with removed := true }, p⟩ result u o' ↔
        s.guard = .free ∧ result = .ok () ∧
          u = { s.put i { r with removed := true } with directory := s.directory.erase id } ∧ o' = p := by
    rw [ends_visit, Guard.enter_forget_iff]
    constructor
    · rintro ⟨hg, q, v, hq, h⟩
      cases hq
      obtain ⟨rfl, rfl, rfl⟩ := ends_finished.mp h
      exact ⟨hg, rfl, if_pos hi, rfl⟩
    · rintro ⟨hg, rfl, rfl, rfl⟩
      exact ⟨hg, _, _, rfl, ends_finished.mpr ⟨rfl, (if_pos hi).symm, rfl⟩⟩
  have destroyed (me : Strand) (hfree : r.lock = .free) : Ends manners backend call (c := .remove id)
      ⟨.destroying i, s.put i (r.taken me), o⟩ result t o' ↔
        ((manners.destroy (o.machine r.machine)).1 = .ok () ∧ s.guard = .free ∧ result = .ok () ∧
              t = { s.put i { r with removed := true } with directory := s.directory.erase id } ∧
              o' = (o.setMachine r.machine (manners.destroy (o.machine r.machine)).2).setAgent r.agent
                (manners.close (o.agent r.agent))) ∨
            ∃ f, (manners.destroy (o.machine r.machine)).1 = .error f ∧ result = .error (f.asDestroy id) ∧ t = s ∧
              o' = o.setMachine r.machine (manners.destroy (o.machine r.machine)).2 := by
    have hput := Store.put_getElem? hr (r.taken me)
    have hremoved : ({ r.taken me with removed := true } : Record).released = { r with removed := true } :=
      Record.taken_released (r := { r with removed := true }) hfree me
    rw [ends_destroying hput, ends_closing hput, Store.put_put, hremoved, Store.put_put, Record.taken_released hfree,
      Store.put_self hr]
    show _ ∧ Ends _ _ _ ⟨_, _, (o.setMachine r.machine _).setAgent r.agent (manners.close (o.agent r.agent))⟩ _ _ _ ∨ _ ↔ _
    rw [forgotten]
    rfl
  constructor
  · rintro ⟨me, r', q, u, -, hr', hfree, hq, h⟩
    cases hr.symm.trans hr'
    rw [Point.locked_remove hr hfree] at hq
    refine ⟨hfree, ?_⟩
    cases hd : r.removed with
    | true =>
      rw [hd] at hq
      cases hq
      obtain ⟨rfl, rfl, rfl⟩ := ends_finished.mp h
      exact .inl ⟨rfl, rfl, rfl, rfl⟩
    | false =>
      rw [hd] at hq
      cases hq
      exact .inr ⟨rfl, (destroyed me hfree).mp h⟩
  · rintro ⟨hfree, ⟨hd, rfl, rfl, rfl⟩ | ⟨hd, h⟩⟩
    · refine ⟨⟨call, 0⟩, r, _, _, rfl, hr, hfree, ?_, ends_finished.mpr ⟨rfl, rfl, rfl⟩⟩
      rw [Point.locked_remove hr hfree, hd]
      rfl
    · refine ⟨⟨call, 0⟩, r, _, _, rfl, hr, hfree, ?_, (destroyed ⟨call, 0⟩ hfree).mpr h⟩
      rw [Point.locked_remove hr hfree, hd]
      rfl

theorem ends_refreshing {me : Strand} {result : Except Failure Sandbox.Status} (hr : s.records[i]? = some r)
    (hfree : r.lock = .free) (hme : me.call = call) (hs : r.isStale s.now = true) :
    Ends manners backend call (c := .status id) ⟨Point.ofCheck id (.refreshing i), s.put i (r.taken me), o⟩ result t o' ↔
      result = .ok (r.refreshed s.now (manners.state (o.machine r.machine)).1).snapshot ∧
        t = s.put i (r.refreshed s.now (manners.state (o.machine r.machine)).1) ∧
        o' = o.setMachine r.machine (manners.state (o.machine r.machine)).2 := by
  have hput := Store.put_getElem? hr (r.taken me)
  rw [ends_checking rfl]
  constructor
  · rintro ⟨you, next, u, p, -, hc, h⟩
    obtain ⟨rfl, rfl, rfl⟩ := (Check.stride_refreshing hput hfree hs).mp hc
    rw [Store.put_put] at h
    exact ends_finished.mp h
  · intro h
    refine ⟨me, _, _, _, hme, (Check.stride_refreshing hput hfree hs).mpr ⟨rfl, rfl, rfl⟩, ?_⟩
    rw [Store.put_put]
    exact ends_finished.mpr h

theorem Check.Stride.holder {me you : Strand} {next : Check} {u : Store} {p : Outer V G}
    (hc : Check.Stride manners you (.queued i) s o next u p) (hr : s.records[i]? = some (r.taken me)) : you = me := by
  cases hc with
  | advance hq =>
    simp only [Check.advance] at hq
    split at hq
    · cases hq
    · rename_i r' hheld
      obtain ⟨hr', hl⟩ := Store.held?_eq_some.mp hheld
      cases hr.symm.trans hr'
      exact (Option.some.inj hl).symm
  | answer hrequest ha hq => cases hrequest

theorem ends_queued_check {me : Strand} {result : Except Failure Sandbox.Status} (hr : s.records[i]? = some r)
    (hfree : r.lock = .free) (hme : me.call = call) :
    Ends manners backend call (c := .status id) ⟨Point.ofCheck id (.queued i), s.put i (r.taken me), o⟩ result t o' ↔
      (r.removed = true ∧ result = Point.missing id ∧ t = s ∧ o' = o) ∨
        (r.removed = false ∧ result = .ok (r.refreshed s.now (manners.state (o.machine r.machine)).1).snapshot ∧
          t = s.put i (r.refreshed s.now (manners.state (o.machine r.machine)).1) ∧
          o' = if r.isStale s.now then o.setMachine r.machine (manners.state (o.machine r.machine)).2 else o) := by
  have hput := Store.put_getElem? hr (r.taken me)
  rw [ends_checking rfl]
  constructor
  · rintro ⟨you, next, u, p, -, hc, h⟩
    obtain rfl := hc.holder hput
    obtain ⟨rfl, ⟨hd, rfl, rfl⟩ | ⟨hd, hs, rfl, rfl⟩ | ⟨hd, hs, rfl, rfl⟩⟩ := (Check.stride_queued hput hfree).mp hc
    · rw [Store.put_put, Store.put_self hr] at h
      exact .inl ⟨hd, ends_finished.mp h⟩
    · rw [if_pos (show r.isStale s.now = true from hs)]
      exact .inr ⟨hd, (ends_refreshing hr hfree hme hs).mp h⟩
    · have hs : r.isStale s.now = false := hs
      rw [Store.put_put] at h
      rw [Record.refreshed_of_fresh hs, if_neg (by simp [hs])]
      exact .inr ⟨hd, ends_finished.mp h⟩
  · rintro (⟨hd, h⟩ | ⟨hd, h⟩)
    · refine ⟨me, _, _, _, hme, (Check.stride_queued hput hfree).mpr ⟨rfl, .inl ⟨hd, rfl, rfl⟩⟩, ?_⟩
      rw [Store.put_put, Store.put_self hr]
      exact ends_finished.mpr h
    · cases hs : r.isStale s.now with
      | true =>
        rw [if_pos hs] at h
        exact ⟨me, _, _, _, hme, (Check.stride_queued hput hfree).mpr ⟨rfl, .inr (.inl ⟨hd, hs, rfl, rfl⟩)⟩,
          (ends_refreshing hr hfree hme hs).mpr h⟩
      | false =>
        refine ⟨me, _, _, _, hme, (Check.stride_queued hput hfree).mpr ⟨rfl, .inr (.inr ⟨hd, hs, rfl, rfl⟩)⟩, ?_⟩
        rw [Record.refreshed_of_fresh hs, if_neg (by simp [hs])] at h
        rw [Store.put_put]
        exact ends_finished.mpr h

/-- A status that gets the lock refreshes the record, if the sandbox is not removed. -/
theorem ends_status {result : Except Failure Sandbox.Status} (hf : s.Fair call) (hr : s.records[i]? = some r) :
    Ends manners backend call (c := .status id) ⟨.checking (.arriving i), s, o⟩ result t o' ↔ r.lock = .free ∧
      ((r.removed = true ∧ result = Point.missing id ∧ t = s ∧ o' = o) ∨
        (r.removed = false ∧ result = .ok (r.refreshed s.now (manners.state (o.machine r.machine)).1).snapshot ∧
          t = s.put i (r.refreshed s.now (manners.state (o.machine r.machine)).1) ∧
          o' = if r.isStale s.now then o.setMachine r.machine (manners.state (o.machine r.machine)).2 else o)) := by
  show Ends _ _ _ ⟨Point.ofCheck id (.arriving i), s, o⟩ _ _ _ ↔ _
  rw [ends_checking rfl]
  constructor
  · rintro ⟨me, next, u, p, hme, hc, h⟩
    obtain ⟨rfl, rfl, rfl⟩ := Check.stride_arriving.mp hc
    have hfree : r.lock = .free := by
      obtain ⟨you, next, u, p, hyou, hc, -⟩ := (ends_checking rfl).mp h
      cases hc with
      | advance hq =>
        simp only [Check.advance] at hq
        split at hq
        · cases hq
        · rename_i r' hheld
          obtain ⟨r₀, hr₀, hfree, -⟩ := Store.held?_requestLock hf hyou hheld
          cases hr.symm.trans hr₀
          exact hfree
      | answer hrequest ha hq => cases hrequest
    rw [Store.requestLock_eq hr hfree] at h
    exact ⟨hfree, (ends_queued_check hr hfree hme).mp h⟩
  · rintro ⟨hfree, h⟩
    refine ⟨⟨call, 0⟩, _, _, _, rfl, Check.stride_arriving.mpr ⟨rfl, rfl, rfl⟩, ?_⟩
    rw [Store.requestLock_eq hr hfree]
    exact (ends_queued_check hr hfree (show (⟨call, 0⟩ : Strand).call = call from rfl)).mpr h

/-! ### Every call on one sandbox -/

section
variable {α : Type} {x : Treatment α V G} {a : α}

theorem outcome_of_none (hi : s.directory.find? id = none) :
    x.Outcome id s o a t o' ↔ s.guard ≠ .writer ∧ a = x.gone ∧ t = s ∧ o' = o := by
  constructor
  · intro h
    cases h with
    | missing hg hi' => exact ⟨hg, rfl, rfl, rfl⟩
    | found hg hi' => cases hi.symm.trans hi'
  · rintro ⟨hg, rfl, rfl, rfl⟩
    exact .missing hg hi

theorem outcome_of_some (hi : s.directory.find? id = some i) (hr : s.records[i]? = some r) {d : Deal α V G}
    (hd : x.deal s.now r (o.machine r.machine) (o.agent r.agent) = d) :
    x.Outcome id s o a t o' ↔ s.guard ≠ .writer ∧ (x.locks = true → r.lock = .free) ∧ (d.kept = false → s.guard = .free) ∧
      a = d.result ∧ t = s.dealt id i d ∧ o' = o.dealt r d := by
  subst hd
  constructor
  · intro h
    cases h with
    | missing hg hi' => cases hi.symm.trans hi'
    | found hg hi' hr' hd hl hk =>
      cases hi.symm.trans hi'
      cases hr.symm.trans hr'
      cases hd
      exact ⟨hg, hl, hk, rfl, rfl, rfl⟩
  · rintro ⟨hg, hl, hk, rfl, rfl, rfl⟩
    exact .found hg hi hr rfl hl hk

/-- What is done to a sandbox, with something made of what it comes to. -/
def Treatment.map {β : Type} (f : α → β) (x : Treatment α V G) : Treatment β V G where
  gone := f x.gone
  locks := x.locks
  deal now r v g := { x.deal now r v g with result := f (x.deal now r v g).result }

theorem outcome_map {β : Type} {f : α → β} {b : β} :
    (x.map f).Outcome id s o b t o' ↔ ∃ a, x.Outcome id s o a t o' ∧ b = f a := by
  constructor
  · intro h
    cases h with
    | missing hg hi => exact ⟨_, .missing hg hi, rfl⟩
    | found hg hi hr hd hl hk =>
      subst hd
      exact ⟨_, .found hg hi hr rfl hl hk, rfl⟩
  · rintro ⟨a, h, rfl⟩
    cases h with
    | missing hg hi => exact .missing hg hi
    | found hg hi hr hd hl hk =>
      subst hd
      exact .found (x := x.map f) hg hi hr rfl hl hk

theorem exists_outcome (x : Treatment α V G) (id : String) (o : Outer V G) (hg : s.guard = .free) (hp : s.Placed)
    (hl : ∀ {i : Nat} {r : Record}, s.directory.find? id = some i → s.records[i]? = some r → r.lock = .free) :
    ∃ a t o', x.Outcome id s o a t o' := by
  have hopen := Guard.ne_writer hg
  cases hi : s.directory.find? id with
  | none => exact ⟨_, _, _, .missing hopen hi⟩
  | some i =>
    obtain ⟨r, hr, -⟩ := hp.record hi
    exact ⟨_, _, _, .found hopen hi hr rfl (fun _ => hl hi hr) fun _ => hg⟩

end

/-- A call on one sandbox that goes on alone ends with what it does to the sandbox, and so only. It ends at all if no
    writer is in the directory and nobody has the lock that it needs, and a remove that succeeds, if nobody is in the
    directory. -/
theorem ends_iff_outcome (hf : s.Fair call) (hp : s.Placed) (hid : c.id? = some id) {x : Treatment c.Result V G}
    (hx : c.treatment? manners = some x) {result : c.Result} :
    Ends manners backend call ⟨.initial c, s, o⟩ result t o' ↔ x.Outcome id s o result t o' := by
  have hc : Point.initial c = .entering .lookup := by
    cases c <;> cases hx <;> rfl
  cases hi : s.directory.find? id with
  | none =>
    have hv : Point.visit s c .lookup = some (.finished x.gone, s) := by
      cases c <;> cases hx <;> cases hid <;> simp only [Point.visit, Point.found, hi, Option.bind_none]
    rw [ends_initial hc hv, ends_finished, outcome_of_none hi]
  | some i =>
    obtain ⟨r, hr, -⟩ := hp.record hi
    cases c with
    | stop name =>
      cases hid
      cases hx
      have hv : Point.visit s (.stop id) .lookup = some (.arriving i, s) := by
        simp only [Point.visit, Point.found, hi]
      rw [ends_initial rfl hv, ends_stop hf hr, outcome_of_some hi hr rfl]
      cases hd : r.removed <;> simp [hd, Store.dealt_of_kept, Store.put_self hr, Outer.dealt_self]
    | remove name =>
      cases hid
      cases hx
      have hv : Point.visit s (.remove id) .lookup = some (.arriving i, s) := by
        simp only [Point.visit, Point.found, hi]
      rw [ends_initial rfl hv, ends_remove hf hi hr, outcome_of_some hi hr rfl]
      cases hd : r.removed with
      | true => simp [hd, Store.dealt_of_kept, Store.put_self hr, Outer.dealt_self]
      | false =>
        rcases hdestroy : manners.destroy (o.machine r.machine) with ⟨f | u, v⟩
        · simp [hd, hdestroy, Store.dealt_of_kept, Store.put_self hr, Outer.dealt_of_agent]
        · simp [hd, hdestroy, Store.dealt_of_dropped, Outer.dealt]
    | status name =>
      cases hid
      cases hx
      have hv : Point.visit s (.status id) .lookup = some (.checking (.arriving i), s) := by
        simp only [Point.visit, Point.found, hi]
      rw [ends_initial rfl hv, ends_status hf hr, outcome_of_some hi hr rfl]
      cases hd : r.removed <;> cases hs : r.isStale s.now <;>
        simp [hd, hs, Store.dealt_of_kept, Store.put_self hr, Outer.dealt_self, Outer.dealt_of_agent]
    | agent name =>
      cases hid
      cases hx
      have hv : Point.visit s (.agent id) .lookup = some (.finished (.ok r.agent), s) := by
        simp only [Point.visit, hi, Option.bind_some, hr]
      rw [ends_initial rfl hv, ends_finished, outcome_of_some hi hr rfl]
      simp [Store.dealt_of_kept, Store.put_self hr, Outer.dealt_self]
    | _ => cases hx

end

/-! ### Two sandboxes -/

theorem erase_comm {β : Type} (t : Table β) (a b : String) : (t.erase a).erase b = (t.erase b).erase a := by
  simp only [Table.erase, List.filter_filter, Bool.and_comm]

section
variable {α β V G : Type} {s t u : Store} {o o' p : Outer V G} {a b : String} {i j : Nat} {r q : Record}
  {d : Deal α V G} {e : Deal β V G}

theorem Store.dealt_find? (hab : a ≠ b) : (s.dealt a i d).directory.find? b = s.directory.find? b := by
  show Table.find? (if d.kept then s.directory else s.directory.erase a) b = _
  split
  · rfl
  · rw [Table.find?_erase, if_neg hab]

theorem Store.dealt_getElem? (hij : i ≠ j) : (s.dealt a i d).records[j]? = s.records[j]? :=
  List.getElem?_set_ne hij

theorem Outer.dealt_machine (hm : r.machine ≠ q.machine) : (o.dealt r d).machine q.machine = o.machine q.machine :=
  if_neg (Ne.symm hm)

theorem Outer.dealt_agent (hg : r.agent ≠ q.agent) : (o.dealt r d).agent q.agent = o.agent q.agent :=
  if_neg (Ne.symm hg)

theorem Store.dealt_comm (hij : i ≠ j) : (s.dealt a i d).dealt b j e = (s.dealt b j e).dealt a i d := by
  simp only [dealt, put, List.set_comm _ _ hij]
  cases d.kept <;> cases e.kept <;> simp [erase_comm]

theorem Outer.dealt_comm (hm : r.machine ≠ q.machine) (hg : r.agent ≠ q.agent) :
    (o.dealt r d).dealt q e = (o.dealt q e).dealt r d := by
  simp only [dealt, setMachine, setAgent, Outer.mk.injEq]
  constructor
  · funext m
    by_cases hr : m = r.machine
    · have hq : m ≠ q.machine := hr ▸ hm
      rw [if_neg hq, if_pos hr, if_pos hr]
    · rw [if_neg hr, if_neg hr]
  · funext g
    by_cases hr : g = r.agent
    · have hq : g ≠ q.agent := hr ▸ hg
      rw [if_neg hq, if_pos hr, if_pos hr]
    · rw [if_neg hr, if_neg hr]

/-- The sandboxes of two ids have neither record nor machine nor agent in common. -/
def Store.Apart (s : Store) (a b : String) : Prop :=
  ∀ {i j : Nat} {r q : Record}, s.directory.find? a = some i → s.records[i]? = some r → s.directory.find? b = some j →
    s.records[j]? = some q → i ≠ j ∧ r.machine ≠ q.machine ∧ r.agent ≠ q.agent

variable {x : Treatment α V G} {y : Treatment β V G} {w : α} {z : β}

/-- What is done to one sandbox leaves the others, with their machines and agents, as they are. -/
theorem Treatment.Outcome.spares (h : x.Outcome a s o w t o') (hab : a ≠ b) (hapart : s.Apart a b) :
    t.directory.find? b = s.directory.find? b ∧ ∀ {j : Nat} {q : Record}, s.directory.find? b = some j →
      s.records[j]? = some q → t.records[j]? = some q ∧ o'.machine q.machine = o.machine q.machine ∧
        o'.agent q.agent = o.agent q.agent := by
  cases h with
  | missing => exact ⟨rfl, fun hj hq => ⟨hq, rfl, rfl⟩⟩
  | found hg hi hr hd hl hk =>
    refine ⟨Store.dealt_find? hab, fun {j q} hj hq => ?_⟩
    obtain ⟨hij, hm, hg⟩ := hapart hi hr hj hq
    exact ⟨(Store.dealt_getElem? hij).trans hq, Outer.dealt_machine hm, Outer.dealt_agent hg⟩

theorem Treatment.Outcome.guard_eq (h : x.Outcome a s o w t o') : t.guard = s.guard ∧ t.now = s.now := by
  cases h <;> exact ⟨rfl, rfl⟩

/-- What is done to one sandbox after another can be done to it before the other, to the same end. -/
theorem Treatment.Outcome.swap (hp : s.Placed) (hab : a ≠ b) (hapart : s.Apart a b) (hx : x.Outcome a s o w t o')
    (hy : y.Outcome b t o' z u p) : ∃ t' p', y.Outcome b s o z t' p' ∧ x.Outcome a t' p' w u p := by
  obtain ⟨hfind, hspared⟩ := hx.spares hab hapart
  cases hx with
  | missing hgx hix =>
    refine ⟨u, p, hy, ?_⟩
    cases hy with
    | missing hgy hiy => exact .missing hgx hix
    | found hgy hiy hry hdy hly hky => exact .missing hgx ((Store.dealt_find? (Ne.symm hab)).trans hix)
  | @found i r d hgx hix hrx hdx hlx hkx =>
    cases hy with
    | missing hgy hiy => exact ⟨s, o, .missing hgx (hfind.symm.trans hiy), .found hgx hix hrx hdx hlx hkx⟩
    | @found j q e hgy hiy hry hdy hly hky =>
      -- The second sandbox is found as it was before the first was dealt with, and so the other way around.
      have hiy := hfind.symm.trans hiy
      obtain ⟨q', hq', -⟩ := hp.record hiy
      obtain ⟨hkept, hmachine, hagent⟩ := hspared hiy hq'
      cases hkept.symm.trans hry
      obtain ⟨hij, hm, hg⟩ := hapart hix hrx hiy hq'
      rw [hmachine, hagent] at hdy
      refine ⟨s.dealt b j e, o.dealt q e, .found hgx hiy hq' hdy hly hky, ?_⟩
      rw [Store.dealt_comm hij, Outer.dealt_comm hm hg]
      refine .found hgx ((Store.dealt_find? (Ne.symm hab)).trans hix) ((Store.dealt_getElem? (Ne.symm hij)).trans hrx) ?_
        hlx hkx
      rw [Outer.dealt_machine (Ne.symm hm), Outer.dealt_agent (Ne.symm hg)]
      exact hdx

theorem Treatment.Outcome.unique {w' : α} {t' : Store} {p' : Outer V G} (h : x.Outcome a s o w t o')
    (h' : x.Outcome a s o w' t' p') : w = w' ∧ t = t' ∧ o' = p' := by
  cases h with
  | missing hg hi =>
    cases h' with
    | missing => exact ⟨rfl, rfl, rfl⟩
    | found hg' hi' => cases hi.symm.trans hi'
  | found hg hi hr hd =>
    cases h' with
    | missing hg' hi' => cases hi.symm.trans hi'
    | found hg' hi' hr' hd' =>
      cases hi.symm.trans hi'
      cases hr.symm.trans hr'
      cases hd.trans hd'.symm
      exact ⟨rfl, rfl, rfl⟩

end

end PodMachines.Pods
