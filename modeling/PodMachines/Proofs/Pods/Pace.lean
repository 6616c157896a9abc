import PodMachines.Proofs.Pods.Chronicle

/-! What one step of a strand is: where it takes the strand's call, what is noted of it, and what becomes of the
    store. Every proof about runs goes by cases on these paces and never opens the points again. -/

namespace PodMachines.Pods

/-- With a record in the place of another one. -/
def Store.put (s : Store) (i : Nat) (r : Record) : Store :=
  { s with records := s.records.set i r }

theorem Store.modify_eq_put {s : Store} {i : Nat} {r : Record} (h : s.records[i]? = some r) (f : Record → Record) :
    s.modify i f = s.put i (f r) := by
  obtain ⟨hi, rfl⟩ := List.getElem?_eq_some_iff.mp h
  have : s.records.modify i f = s.records.set i (f s.records[i]) := by
    apply List.ext_getElem?
    intro j
    rw [List.getElem?_modify, List.getElem?_set]
    by_cases hij : i = j
    · subst hij
      simp [hi]
    · simp [hij]
  simp only [Store.modify, Store.put, this]

theorem Store.held?_eq_some {s : Store} {i : Nat} {me : Strand} {r : Record} :
    s.held? i me = some r ↔ s.records[i]? = some r ∧ r.lock.holder = some me := by
  simp [Store.held?, Option.filter_eq_some_iff]

/-! ### Checks -/

inductive Check.Pace (me : Strand) (s : Store) : Check → List Deed → Check → Store → Prop
  | arrive (i : Nat) : Pace me s (.arriving i) [] (.queued i) (s.requestLock i me)
  | refuse {i : Nat} {r : Record} (hr : s.records[i]? = some r) (hl : r.lock.holder = some me)
      (hd : r.removed = true) :
      Pace me s (.queued i) [.locks, .reports none] (.settled none) (s.put i r.released)
  | fresh {i : Nat} {r : Record} (hr : s.records[i]? = some r) (hl : r.lock.holder = some me)
      (hd : r.removed = false) (hf : r.isStale s.now = false) :
      Pace me s (.queued i) [.locks, .reports (some r.downgraded.snapshot)] (.settled (some r.downgraded.snapshot))
        (s.put i r.downgraded.released)
  | query {i : Nat} {r : Record} (hr : s.records[i]? = some r) (hl : r.lock.holder = some me)
      (hd : r.removed = false) (hf : r.isStale s.now = true) :
      Pace me s (.queued i) [.locks, .asks (.backend (.state r.machine))] (.refreshing i) s
  | sample {i : Nat} {r : Record} (hr : s.records[i]? = some r) (x : Machine.State) :
      Pace me s (.refreshing i)
        [.hears (.backend (.state r.machine)) (.ok x), .reports (some (r.sampled x s.now).downgraded.snapshot)]
        (.settled (some (r.sampled x s.now).downgraded.snapshot)) (s.put i (r.sampled x s.now).downgraded.released)
  | fail {i : Nat} {r : Record} (hr : s.records[i]? = some r) (f : Failure) :
      Pace me s (.refreshing i)
        [.hears (.backend (.state r.machine)) (.error f), .reports (some r.downgraded.snapshot)]
        (.settled (some r.downgraded.snapshot)) (s.put i r.downgraded.released)

namespace Check
variable {me : Strand} {s t : Store} {check next : Check}

/-- Whether the check goes on only with the lock of its record. -/
def waits : Check → Bool
  | .queued _ => true
  | _ => false

/-- What is noted of a check that goes on, besides what it hears. -/
def deeds (check : Check) (next : Check) (t : Store) : List Deed :=
  (if check.waits then [.locks] else []) ++ ((next.request? t).map .asks).toList ++ (next.report?.map .reports).toList

theorem pace_of_advance (h : check.advance me s = some (next, t)) : Pace me s check (check.deeds next t) next t := by
  cases check with
  | arriving i =>
    cases h
    exact .arrive i
  | queued i =>
    simp only [advance] at h
    cases hh : s.held? i me with
    | none => simp [hh] at h
    | some r =>
      obtain ⟨hr, hl⟩ := Store.held?_eq_some.mp hh
      simp only [hh] at h
      by_cases hd : r.removed = true
      · simp only [hd, if_true, Option.some.injEq, Prod.mk.injEq] at h
        obtain ⟨rfl, rfl⟩ := h
        rw [Store.modify_eq_put hr]
        exact .refuse hr hl hd
      · simp only [Bool.not_eq_true] at hd
        by_cases hf : r.isStale s.now = true
        · simp only [hd, hf, if_true, Bool.false_eq_true, if_false, Option.some.injEq, Prod.mk.injEq] at h
          obtain ⟨rfl, rfl⟩ := h
          simpa [deeds, waits, request?, report?, hr] using Pace.query hr hl hd hf
        · simp only [Bool.not_eq_true] at hf
          simp only [hd, hf, Bool.false_eq_true, if_false, settle, Option.some.injEq, Prod.mk.injEq] at h
          obtain ⟨rfl, rfl⟩ := h
          rw [Store.modify_eq_put hr]
          exact .fresh hr hl hd hf
  | refreshing i => cases h
  | settled status => cases h

theorem pace_of_answer {request : Request} {a : request.Answer} (hq : check.request? s = some request)
    (h : check.answer s request a = some (next, t)) :
    Pace me s check (.hears request a :: check.deeds next t) next t := by
  cases check with
  | refreshing i =>
    simp only [request?, Option.map_eq_some_iff] at hq
    obtain ⟨r, hr, rfl⟩ := hq
    cases a with
    | ok x =>
      simp only [answer, hr, settle, Option.some.injEq, Prod.mk.injEq] at h
      obtain ⟨rfl, rfl⟩ := h
      rw [Store.modify_eq_put hr]
      exact .sample hr x
    | error f =>
      simp only [answer, hr, settle, Option.some.injEq, Prod.mk.injEq] at h
      obtain ⟨rfl, rfl⟩ := h
      rw [Store.modify_eq_put hr]
      exact .fail hr f
  | arriving i => cases h
  | queued i => cases h
  | settled status => cases h

end Check

/-! ### Calls -/

def Store.left (s : Store) : Store :=
  { s with guard := s.guard.leave }

/-- One step of a strand. `backend` is the name of the backend. -/
inductive Pace (backend : String) (me : Strand) (s : Store) : Running → List Deed → Running → Store → Prop
  | provision {spec : Sandbox.Spec} {suffix : UInt32} {vm : Machine.Spec}
      (hv : vm = .forPod spec.nspace spec.name (if s.imageBoot then spec.bootImage else none) suffix) :
      Pace backend me s ⟨.create spec suffix, .starting⟩ [.asks (.backend (.provision vm))]
        ⟨.create spec suffix, .provisioning vm⟩ s
  | provisioned {spec : Sandbox.Spec} {suffix : UInt32} {vm : Machine.Spec} (machine : Machine.Handle) :
      Pace backend me s ⟨.create spec suffix, .provisioning vm⟩
        [.hears (.backend (.provision vm)) (.ok machine), .asks (.backend (.addresses machine))]
        ⟨.create spec suffix, .addressing machine⟩ s
  | unprovisioned {spec : Sandbox.Spec} {suffix : UInt32} {vm : Machine.Spec} (f : Failure) :
      Pace backend me s ⟨.create spec suffix, .provisioning vm⟩
        [.hears (.backend (.provision vm)) (.error f), .ends (.create spec suffix) (.error (f.asProvision backend))]
        ⟨.create spec suffix, .finished (.error (f.asProvision backend))⟩ s
  | addressed {spec : Sandbox.Spec} {suffix : UInt32} {machine : Machine.Handle} (address : Address)
      (rest : List Address) :
      Pace backend me s ⟨.create spec suffix, .addressing machine⟩
        [.hears (.backend (.addresses machine)) (.ok (address :: rest)), .asks (.connect address)]
        ⟨.create spec suffix, .connecting machine address⟩ s
  | unaddressed {spec : Sandbox.Spec} {suffix : UInt32} {machine : Machine.Handle}
      (found : Except Failure (List Address)) {why : Failure}
      (hw : (found = .ok [] ∧ why = .network machine.id "backend reported no address") ∨
        ∃ f, found = .error f ∧ why = f.asNetwork machine.id) :
      Pace backend me s ⟨.create spec suffix, .addressing machine⟩
        [.hears (.backend (.addresses machine)) found, .asks (.backend (.destroy machine))]
        ⟨.create spec suffix, .discarding machine why⟩ s
  | connected {spec : Sandbox.Spec} {suffix : UInt32} {machine : Machine.Handle} {address : Address}
      (agent : Connection) :
      Pace backend me s ⟨.create spec suffix, .connecting machine address⟩ [.hears (.connect address) (.ok agent)]
        ⟨.create spec suffix, .entering (.enroll machine.id s.records.length)⟩
        { s with records := s.records ++ [Record.new spec machine address agent s.now] }
  | unconnected {spec : Sandbox.Spec} {suffix : UInt32} {machine : Machine.Handle} {address : Address} (f : Failure) :
      Pace backend me s ⟨.create spec suffix, .connecting machine address⟩
        [.hears (.connect address) (.error f), .asks (.backend (.destroy machine))]
        ⟨.create spec suffix, .discarding machine (f.asUnreachable address.toText)⟩ s
  | discarded {spec : Sandbox.Spec} {suffix : UInt32} {machine : Machine.Handle} {why : Failure}
      (a : Except Failure Unit) :
      Pace backend me s ⟨.create spec suffix, .discarding machine why⟩
        [.hears (.backend (.destroy machine)) a, .ends (.create spec suffix) (.error why)]
        ⟨.create spec suffix, .finished (.error why)⟩ s
  | enter {c : Call} {visit : Visit} {guard : Guard} (hg : s.guard.enter visit = some guard) :
      Pace backend me s ⟨c, .entering visit⟩ [] ⟨c, .inside visit⟩ { s with guard := guard }
  | enroll {spec : Sandbox.Spec} {suffix : UInt32} (id : String) (i : Nat) :
      Pace backend me s ⟨.create spec suffix, .inside (.enroll id i)⟩ [.ends (.create spec suffix) (.ok id)]
        ⟨.create spec suffix, .finished (.ok id)⟩ { s.left with directory := s.directory.insert id i }
  | forget {name : String} (id : String) (i : Nat) :
      Pace backend me s ⟨.remove name, .inside (.forget id i)⟩ [.ends (.remove name) (.ok ())]
        ⟨.remove name, .finished (.ok ())⟩
        (if s.directory.find? id = some i then { s.left with directory := s.directory.erase id } else s.left)
  | stopFound {id : String} {i : Nat} (hi : s.directory.find? id = some i) :
      Pace backend me s ⟨.stop id, .inside .lookup⟩ [] ⟨.stop id, .arriving i⟩ s.left
  | stopMissing {id : String} (hi : s.directory.find? id = none) :
      Pace backend me s ⟨.stop id, .inside .lookup⟩ [.ends (.stop id) (Point.missing id)]
        ⟨.stop id, .finished (Point.missing id)⟩ s.left
  | removeFound {id : String} {i : Nat} (hi : s.directory.find? id = some i) :
      Pace backend me s ⟨.remove id, .inside .lookup⟩ [] ⟨.remove id, .arriving i⟩ s.left
  | removeMissing {id : String} (hi : s.directory.find? id = none) :
      Pace backend me s ⟨.remove id, .inside .lookup⟩ [.ends (.remove id) (Point.missing id)]
        ⟨.remove id, .finished (Point.missing id)⟩ s.left
  | statusFound {id : String} {i : Nat} (hi : s.directory.find? id = some i) :
      Pace backend me s ⟨.status id, .inside .lookup⟩ [] ⟨.status id, .checking (.arriving i)⟩ s.left
  | statusMissing {id : String} (hi : s.directory.find? id = none) :
      Pace backend me s ⟨.status id, .inside .lookup⟩ [.ends (.status id) (Point.missing id)]
        ⟨.status id, .finished (Point.missing id)⟩ s.left
  | listed {filter : Sandbox.Filter} :
      Pace backend me s ⟨.list filter, .inside .lookup⟩
        (Point.ofChecks filter ((Point.listed s filter).map .arriving)).ending
        ⟨.list filter, Point.ofChecks filter ((Point.listed s filter).map .arriving)⟩ s.left
  | told {c : Call} (hc : (∃ id, c = .agent id) ∨ (∃ id, c = .address id) ∨ c = .ids) (result : c.Result) :
      Pace backend me s ⟨c, .inside .lookup⟩ [.ends c result] ⟨c, .finished result⟩ s.left
  | arrive {c : Call} (i : Nat) :
      Pace backend me s ⟨c, .arriving i⟩ [] ⟨c, .queued i⟩ (s.requestLock i me)
  | stopRefused {id : String} {i : Nat} {r : Record} (hr : s.records[i]? = some r) (hl : r.lock.holder = some me)
      (hd : r.removed = true) :
      Pace backend me s ⟨.stop id, .queued i⟩ [.locks, .ends (.stop id) (Point.missing id)]
        ⟨.stop id, .finished (Point.missing id)⟩ (s.put i r.released)
  | stopped {id : String} {i : Nat} {r : Record} (hr : s.records[i]? = some r) (hl : r.lock.holder = some me)
      (hd : r.removed = false) :
      Pace backend me s ⟨.stop id, .queued i⟩ [.locks, .ends (.stop id) (.ok ())]
        ⟨.stop id, .finished (.ok ())⟩ (s.put i { r with lifecycle := .notReady }.released)
  | removeRefused {id : String} {i : Nat} {r : Record} (hr : s.records[i]? = some r) (hl : r.lock.holder = some me)
      (hd : r.removed = true) :
      Pace backend me s ⟨.remove id, .queued i⟩ [.locks, .ends (.remove id) (Point.missing id)]
        ⟨.remove id, .finished (Point.missing id)⟩ (s.put i r.released)
  | destroy {id : String} {i : Nat} {r : Record} (hr : s.records[i]? = some r) (hl : r.lock.holder = some me)
      (hd : r.removed = false) :
      Pace backend me s ⟨.remove id, .queued i⟩ [.locks, .asks (.backend (.destroy r.machine))]
        ⟨.remove id, .destroying i⟩ s
  | destroyed {id : String} {i : Nat} {r : Record} (hr : s.records[i]? = some r) :
      Pace backend me s ⟨.remove id, .destroying i⟩
        [.hears (.backend (.destroy r.machine)) (.ok ()), .asks (.close r.agent)] ⟨.remove id, .closing i⟩ s
  | undestroyed {id : String} {i : Nat} {r : Record} (hr : s.records[i]? = some r) (f : Failure) :
      Pace backend me s ⟨.remove id, .destroying i⟩
        [.hears (.backend (.destroy r.machine)) (.error f), .ends (.remove id) (.error (f.asDestroy id))]
        ⟨.remove id, .finished (.error (f.asDestroy id))⟩ (s.put i r.released)
  | closed {id : String} {i : Nat} {r : Record} (hr : s.records[i]? = some r) :
      Pace backend me s ⟨.remove id, .closing i⟩ [.hears (.close r.agent) ()]
        ⟨.remove id, .entering (.forget id i)⟩ (s.put i { r with removed := true }.released)
  | check {id : String} {check next : Check} {ds : List Deed} {t : Store} (h : check.Pace me s ds next t) :
      Pace backend me s ⟨.status id, .checking check⟩ (ds ++ (Point.ofCheck id next).ending)
        ⟨.status id, Point.ofCheck id next⟩ t
  | gather {filter : Sandbox.Filter} {checks : List Check} {check next : Check} {ds : List Deed} {t : Store}
      (hc : checks[me.part]? = some check) (h : check.Pace me s ds next t) :
      Pace backend me s ⟨.list filter, .gathering checks⟩
        (ds ++ (Point.ofChecks filter (checks.set me.part next)).ending)
        ⟨.list filter, Point.ofChecks filter (checks.set me.part next)⟩ t

namespace Point
variable {c : Call} {me : Strand} {s t : Store} {p q : Point c}

theorem mapM_report?_eq_some {checks : List Check} {reports : List (Option Sandbox.Status)} :
    checks.mapM Check.report? = some reports ↔ checks = reports.map .settled := by
  induction checks generalizing reports with
  | nil => cases reports <;> simp
  | cons check rest ih =>
    simp only [List.mapM_cons, bind, Option.bind_eq_some_iff, pure, Option.some.injEq]
    constructor
    · rintro ⟨r, hr, rs, hrs, rfl⟩
      cases check <;> simp [Check.report?] at hr
      subst hr
      simp [ih.mp hrs]
    · intro h
      cases reports with
      | nil => cases h
      | cons r rs =>
        simp only [List.map_cons, List.cons.injEq] at h
        exact ⟨r, by rw [h.1]; rfl, rs, ih.mpr h.2, rfl⟩

/-- A list goes on while a check of it does, and ends when all have. -/
theorem ofChecks_cases (filter : Sandbox.Filter) (checks : List Check) :
    (∃ reports : List (Option Sandbox.Status), checks = reports.map .settled ∧
      ofChecks filter checks = .finished ((reports.filterMap fun report => report).filter filter.selects)) ∨
    ((∀ reports : List (Option Sandbox.Status), checks ≠ reports.map .settled) ∧
      ofChecks filter checks = .gathering checks) := by
  unfold ofChecks
  cases h : checks.mapM Check.report? with
  | some reports => exact .inl ⟨reports, mapM_report?_eq_some.mp h, rfl⟩
  | none => exact .inr ⟨fun reports hr => (by rw [mapM_report?_eq_some.mpr hr] at h; cases h), rfl⟩

theorem request?_ofChecks (filter : Sandbox.Filter) (checks : List Check) :
    (ofChecks filter checks).request? me s = checks[me.part]?.bind (Check.request? s) := by
  obtain ⟨reports, rfl, h⟩ | ⟨-, h⟩ := ofChecks_cases filter checks
  · rw [h, List.getElem?_map]
    cases reports[me.part]? <;> rfl
  · rw [h]
    rfl

theorem request?_ofCheck (id : String) (check : Check) : (ofCheck id check).request? me s = check.request? s := by
  cases check with
  | settled status => cases status <;> rfl
  | _ => rfl

theorem visit_pace (backend : String) {v : Visit} (h : visit s.left c v = some (q, t)) :
    Pace backend me s ⟨c, .inside v⟩ ((Point.inside v : Point c).deeds me (q, t) none) ⟨c, q⟩ t := by
  cases c with
  | create spec suffix =>
    cases v with
    | enroll id i => cases h; exact .enroll id i
    | _ => cases h
  | stop id =>
    cases v with
    | lookup =>
      simp only [visit, found, Store.left, Option.some.injEq, Prod.mk.injEq] at h
      obtain ⟨rfl, rfl⟩ := h
      cases hi : s.directory.find? id with
      | some i => exact .stopFound hi
      | none => exact .stopMissing hi
    | _ => cases h
  | remove id =>
    cases v with
    | lookup =>
      simp only [visit, found, Store.left, Option.some.injEq, Prod.mk.injEq] at h
      obtain ⟨rfl, rfl⟩ := h
      cases hi : s.directory.find? id with
      | some i => exact .removeFound hi
      | none => exact .removeMissing hi
    | forget id i => cases h; exact .forget id i
    | enroll id i => cases h
  | status id =>
    cases v with
    | lookup =>
      simp only [visit, found, Store.left, Option.some.injEq, Prod.mk.injEq] at h
      obtain ⟨rfl, rfl⟩ := h
      cases hi : s.directory.find? id with
      | some i => exact .statusFound hi
      | none => exact .statusMissing hi
    | _ => cases h
  | list filter =>
    cases v with
    | lookup =>
      cases h
      have hq : (ofChecks filter ((listed s.left filter).map .arriving)).request? me s.left = none := by
        rw [request?_ofChecks, List.getElem?_map]
        cases (listed s.left filter)[me.part]? <;> rfl
      have hd : (Point.inside .lookup : Point (.list filter)).deeds me
          (ofChecks filter ((listed s.left filter).map .arriving), s.left) none =
            (ofChecks filter ((listed s.left filter).map .arriving)).ending := by
        simp [deeds, waits, check?, hq]
      rw [hd]
      exact .listed
    | _ => cases h
  | agent id =>
    cases v with
    | lookup => cases h; exact .told (.inl ⟨id, rfl⟩) _
    | _ => cases h
  | address id =>
    cases v with
    | lookup => cases h; exact .told (.inr (.inl ⟨id, rfl⟩)) _
    | _ => cases h
  | ids =>
    cases v with
    | lookup => cases h; exact .told (.inr (.inr rfl)) _
    | _ => cases h

theorem ending_ofChecks_deeds {me : Strand} {filter : Sandbox.Filter} {checks : List Check} {check next : Check}
    (hc : checks[me.part]? = some check) :
    (Point.gathering checks : Point (.list filter)).deeds me (ofChecks filter (checks.set me.part next), t)
      next.report? = check.deeds next t ++ (ofChecks filter (checks.set me.part next)).ending := by
  have hi := (List.getElem?_eq_some_iff.mp hc).1
  simp only [deeds, Check.deeds, request?_ofChecks, List.getElem?_set_self hi, Option.bind_some]
  cases check <;> simp [waits, check?, hc, Check.waits]

theorem pace_of_advance (backend : String) (h : p.advance me s = some (q, t)) :
    Pace backend me s ⟨c, p⟩ (p.deeds me (q, t) (p.advanceReport me s)) ⟨c, q⟩ t := by
  cases p with
  | starting =>
    cases c with
    | create spec suffix =>
      cases h
      exact .provision rfl
    | _ => cases h
  | entering v =>
    simp only [advance, Option.map_eq_some_iff] at h
    obtain ⟨g, hg, h⟩ := h
    cases h
    exact .enter hg
  | inside v =>
    simp only [advance] at h
    exact visit_pace backend h
  | arriving i =>
    simp only [advance, Option.some.injEq, Prod.mk.injEq] at h
    obtain ⟨rfl, rfl⟩ := h
    exact .arrive i
  | queued i =>
    simp only [advance] at h
    cases hh : s.held? i me with
    | none => simp [hh] at h
    | some r =>
      obtain ⟨hr, hl⟩ := Store.held?_eq_some.mp hh
      simp only [hh] at h
      cases c with
      | stop id =>
        cases hd : r.removed with
        | true =>
          simp only [locked, hd, if_true, Option.some.injEq, Prod.mk.injEq, Store.modify_eq_put hr] at h
          obtain ⟨rfl, rfl⟩ := h
          exact .stopRefused hr hl hd
        | false =>
          simp only [locked] at h
          rw [if_neg (by simp [hd])] at h
          simp only [Option.some.injEq, Prod.mk.injEq, Store.modify_eq_put hr] at h
          obtain ⟨rfl, rfl⟩ := h
          exact .stopped hr hl hd
      | remove id =>
        cases hd : r.removed with
        | true =>
          simp only [locked, hd, if_true, Option.some.injEq, Prod.mk.injEq, Store.modify_eq_put hr] at h
          obtain ⟨rfl, rfl⟩ := h
          exact .removeRefused hr hl hd
        | false =>
          simp only [locked, hd, Bool.false_eq_true, if_false, Option.some.injEq, Prod.mk.injEq] at h
          obtain ⟨rfl, rfl⟩ := h
          simpa [deeds, waits, request?, hr, advanceReport, check?, ending] using Pace.destroy hr hl hd
      | _ => cases h
  | checking check =>
    cases c with
    | status id =>
      simp only [advance, Option.map_eq_some_iff] at h
      obtain ⟨⟨next, t'⟩, hn, h⟩ := h
      simp only [Prod.mk.injEq] at h
      obtain ⟨rfl, rfl⟩ := h
      have hp : Pace backend me s ⟨.status id, _⟩ _ _ _ := .check (Check.pace_of_advance hn)
      cases check <;>
        simpa [deeds, Check.deeds, waits, Check.waits, advanceReport, check?, hn, request?_ofCheck] using hp
    | _ => cases h
  | gathering checks =>
    cases c with
    | list filter =>
      simp only [advance] at h
      cases hc : checks[me.part]? with
      | none => simp [hc] at h
      | some check =>
        simp only [hc, Option.map_eq_some_iff] at h
        obtain ⟨⟨next, t'⟩, hn, h⟩ := h
        simp only [Prod.mk.injEq] at h
        obtain ⟨rfl, rfl⟩ := h
        have hp : Pace backend me s ⟨.list filter, _⟩ _ _ _ := .gather hc (Check.pace_of_advance hn)
        have hr : (gathering checks : Point (.list filter)).advanceReport me s = next.report? := by
          simp [advanceReport, check?, hc, hn]
        rw [hr, ending_ofChecks_deeds hc]
        exact hp
    | _ => cases h
  | provisioning vm => cases c <;> cases h
  | addressing machine => cases c <;> cases h
  | connecting machine address => cases c <;> cases h
  | discarding machine why => cases c <;> cases h
  | destroying i => cases c <;> cases h
  | closing i => cases c <;> cases h
  | finished result => cases c <;> cases h

theorem pace_of_answer (backend : String) {request : Request} {a : request.Answer}
    (hq : p.request? me s = some request) (h : p.answer backend me s request a = some (q, t)) :
    Pace backend me s ⟨c, p⟩ (.hears request a :: p.deeds me (q, t) (p.answerReport me s request a)) ⟨c, q⟩ t := by
  cases p with
  | provisioning vm =>
    cases hq
    cases c with
    | create spec suffix =>
      cases a with
      | ok machine => cases h; exact .provisioned machine
      | error f => cases h; exact .unprovisioned f
    | _ => cases h
  | addressing machine =>
    cases hq
    cases c with
    | create spec suffix =>
      cases a with
      | ok found =>
        cases found with
        | nil => cases h; exact .unaddressed _ (.inl ⟨rfl, rfl⟩)
        | cons address rest => cases h; exact .addressed address rest
      | error f => cases h; exact .unaddressed _ (.inr ⟨f, rfl, rfl⟩)
    | _ => cases h
  | connecting machine address =>
    cases hq
    cases c with
    | create spec suffix =>
      cases a with
      | ok agent => cases h; exact .connected agent
      | error f => cases h; exact .unconnected f
    | _ => cases h
  | discarding machine why =>
    cases hq
    cases c with
    | create spec suffix => cases h; exact .discarded a
    | _ => cases h
  | destroying i =>
    simp only [request?, Option.map_eq_some_iff] at hq
    obtain ⟨r, hr, rfl⟩ := hq
    cases c with
    | remove id =>
      cases a with
      | ok u =>
        simp only [answer, Option.some.injEq, Prod.mk.injEq] at h
        obtain ⟨rfl, rfl⟩ := h
        simpa [deeds, waits, request?, hr, answerReport, check?, ending] using Pace.destroyed hr
      | error f =>
        simp only [answer, Option.some.injEq, Prod.mk.injEq, Store.modify_eq_put hr] at h
        obtain ⟨rfl, rfl⟩ := h
        exact .undestroyed hr f
    | _ => cases h
  | closing i =>
    simp only [request?, Option.map_eq_some_iff] at hq
    obtain ⟨r, hr, rfl⟩ := hq
    cases c with
    | remove id =>
      simp only [answer, Option.some.injEq, Prod.mk.injEq, Store.modify_eq_put hr] at h
      obtain ⟨rfl, rfl⟩ := h
      exact .closed hr
    | _ => cases h
  | checking check =>
    cases c with
    | status id =>
      simp only [answer, Option.map_eq_some_iff] at h
      obtain ⟨⟨next, t'⟩, hn, h⟩ := h
      simp only [Prod.mk.injEq] at h
      obtain ⟨rfl, rfl⟩ := h
      have hp : Pace backend me s ⟨.status id, _⟩ _ _ _ := .check (Check.pace_of_answer hq hn)
      cases check <;>
        simpa [deeds, Check.deeds, waits, Check.waits, answerReport, check?, hn, request?_ofCheck] using hp
    | _ => cases h
  | gathering checks =>
    cases c with
    | list filter =>
      simp only [answer] at h
      cases hc : checks[me.part]? with
      | none => simp [hc] at h
      | some check =>
        simp only [hc, Option.map_eq_some_iff] at h
        obtain ⟨⟨next, t'⟩, hn, h⟩ := h
        simp only [Prod.mk.injEq] at h
        obtain ⟨rfl, rfl⟩ := h
        simp only [request?, hc, Option.bind_some] at hq
        have hp : Pace backend me s ⟨.list filter, _⟩ _ _ _ := .gather hc (Check.pace_of_answer hq hn)
        have hr : (gathering checks : Point (.list filter)).answerReport me s request a = next.report? := by
          simp [answerReport, check?, hc, hn]
        rw [hr, ending_ofChecks_deeds hc]
        exact hp
    | _ => cases h
  | starting => cases c <;> cases h
  | entering v => cases c <;> cases h
  | inside v => cases c <;> cases h
  | arriving i => cases c <;> cases h
  | queued i => cases c <;> cases h
  | finished result => cases c <;> cases h

end Point

/-! ### The pods -/

namespace System

/-- With a strand's call elsewhere, and what that makes of the store. -/
def after (s : System) (me : Strand) (q : Running) (t : Store) : System :=
  { s with store := t, calls := s.calls.set me.call q }

/-- One step of the pods, with its notes. -/
inductive Goes (s : System) : List Note → System → Prop
  | start (c : Call) : Goes s [] (s.start c)
  | pace {me : Strand} {p q : Running} {ds : List Deed} {t : Store} (hp : s.calls[me.call]? = some p)
      (h : Pace s.backend me s.store p ds q t) :
      Goes s (ds.map fun d => ⟨s.store.now, me, (p.point.record? me).or (q.point.record? me), d⟩)
        (s.after me q t)
  | pass (milliseconds : Nat) : Goes s [] (s.pass milliseconds)
  | enableImageBoot : Goes s [] s.enableImageBoot

theorem goes_of_move {s t : System} {m : Move} (h : s.move? m = some t) : s.Goes (s.notes m) t := by
  cases m with
  | start c => cases h; exact .start c
  | pass milliseconds => cases h; exact .pass milliseconds
  | enableImageBoot => cases h; exact .enableImageBoot
  | advance me =>
    simp only [move?, advance] at h
    cases hp : s.calls[me.call]? with
    | none => simp [hp] at h
    | some p =>
      simp only [hp, Option.map_eq_some_iff] at h
      obtain ⟨⟨q, t'⟩, hq, rfl⟩ := h
      simp only [notes, hp, Point.advanceNotes, hq]
      exact .pace hp (Point.pace_of_advance s.backend hq)
  | answer me request a =>
    simp only [move?, answer] at h
    split at h
    · rename_i hr
      cases hp : s.calls[me.call]? with
      | none => simp [hp] at h
      | some p =>
        simp only [request?, hp, Option.bind_some] at hr
        simp only [hp, Option.map_eq_some_iff] at h
        obtain ⟨⟨q, t'⟩, hq, rfl⟩ := h
        simp only [notes, hp, Point.answerNotes, hq]
        exact .pace hp (Point.pace_of_answer s.backend hr hq)
    · cases h

theorem pace_of_advance {s t : System} {me : Strand} (h : s.advance me = some t) : ∃ p q ds st,
    s.calls[me.call]? = some p ∧ t = s.after me q st ∧
      s.notes (.advance me) = (ds.map fun d => ⟨s.store.now, me, (p.point.record? me).or (q.point.record? me), d⟩) ∧
      Pace s.backend me s.store p ds q st := by
  unfold advance at h
  split at h
  · rename_i p hp
    obtain ⟨⟨q, st⟩, hq, rfl⟩ := Option.map_eq_some_iff.mp h
    refine ⟨p, ⟨p.call, q⟩, _, st, hp, rfl, ?_, Point.pace_of_advance s.backend hq⟩
    simp only [notes, hp, Point.advanceNotes, hq]
    rfl
  · cases h

/-- What a strand does that is answered, and how it is noted. -/
theorem pace_of_answer {s t : System} {me : Strand} {request : Request} {a : request.Answer}
    (h : s.answer me request a = some t) : ∃ p q ds st,
    s.calls[me.call]? = some p ∧ t = s.after me q st ∧
      s.notes (.answer me request a) =
        ((.hears request a :: ds).map fun d =>
          ⟨s.store.now, me, (p.point.record? me).or (q.point.record? me), d⟩) ∧
      Pace s.backend me s.store p (.hears request a :: ds) q st := by
  unfold answer at h
  split at h
  · rename_i hr
    split at h
    · rename_i p hp
      rw [request?, hp] at hr
      obtain ⟨⟨q, st⟩, hq, rfl⟩ := Option.map_eq_some_iff.mp h
      refine ⟨p, ⟨p.call, q⟩, _, st, hp, rfl, ?_, Point.pace_of_answer s.backend hr hq⟩
      simp only [notes, hp, Point.answerNotes, hq]
      rfl
    · cases h
  · cases h

end System

/-- What holds at the start of a run and is kept by every step holds at its end. -/
theorem Run.induct {s : System} {P : List Note → System → Prop} (rest : P [] s)
    (step : ∀ {log notes t u}, Run s log t → P log t → t.Goes notes u → P (log ++ notes) u)
    {log : List Note} {t : System} (h : Run s log t) : P log t := by
  induction h with
  | rest => exact rest
  | move h m hm ih => exact step h ih (System.goes_of_move hm)

end PodMachines.Pods
