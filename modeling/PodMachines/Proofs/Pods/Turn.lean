import PodMachines.Proofs.Pods.Pace

/-! What a step does to one record. A strand that has the record's lock may let it go at once or keep it while it
    waits for others; what it waits for then is its work at the record. Every step takes a turn at one record at
    most, and leaves all others as they are. -/

namespace PodMachines.Pods

/-- What a strand waits for while it holds a record's lock. -/
inductive Work
  /-- The state of the machine. -/
  | querying
  /-- The end of the machine. -/
  | destroying
  /-- The end of the connection to the agent. -/
  | closing
  deriving DecidableEq

def Check.work? : Check → Option (Nat × Work)
  | .refreshing i => some (i, .querying)
  | _ => none

/-- The work of a strand, and the record. -/
def Running.work? (p : Running) (me : Strand) : Option (Nat × Work) :=
  match p.point with
  | .destroying i => some (i, .destroying)
  | .closing i => some (i, .closing)
  | point => (point.check? me).bind Check.work?

/-- Whether a call has come to the checks of a list, so that each of its strands makes a check of its own. -/
def Running.gathers (p : Running) : Bool :=
  match p.point with
  | .gathering _ => true
  | _ => false

/-! ### Turns -/

/-- The end of a status or a list. -/
def Deed.EndsCheck (d : Deed) : Prop :=
  (∃ id result, d = .ends (.status id) result) ∨ ∃ filter result, d = .ends (.list filter) result

/-- What is noted of a call that finds a record removed, after it has the lock. -/
inductive Refusal : List Deed → Prop
  | stop (id : String) : Refusal [.ends (.stop id) (Point.missing id)]
  | remove (id : String) : Refusal [.ends (.remove id) (Point.missing id)]
  | check {rest : List Deed} (hrest : ∀ d ∈ rest, d.EndsCheck) : Refusal (.reports none :: rest)

/-- The turn of a strand at a record: its work before, what is noted, and the record and its work after. -/
inductive Turn (me : Strand) (now : Nat) (r : Record) : Option Work → List Deed → Record → Option Work → Prop
  | refuse (hl : r.lock.holder = some me) (hd : r.removed = true) {rest : List Deed} (hrest : Refusal rest) :
      Turn me now r none (.locks :: rest) r.released none
  | stop (hl : r.lock.holder = some me) (hd : r.removed = false) (id : String) :
      Turn me now r none [.locks, .ends (.stop id) (.ok ())] { r with lifecycle := .notReady }.released none
  | destroy (hl : r.lock.holder = some me) (hd : r.removed = false) :
      Turn me now r none [.locks, .asks (.backend (.destroy r.machine))] r (some .destroying)
  | destroyed :
      Turn me now r (some .destroying) [.hears (.backend (.destroy r.machine)) (.ok ()), .asks (.close r.agent)] r
        (some .closing)
  | undestroyed (id : String) (f : Failure) :
      Turn me now r (some .destroying)
        [.hears (.backend (.destroy r.machine)) (.error f), .ends (.remove id) (.error (f.asDestroy id))] r.released none
  | close :
      Turn me now r (some .closing) [.hears (.close r.agent) ()] { r with removed := true }.released none
  | fresh (hl : r.lock.holder = some me) (hd : r.removed = false) (hf : r.isStale now = false) {rest : List Deed}
      (hrest : ∀ d ∈ rest, d.EndsCheck) :
      Turn me now r none (.locks :: .reports (some r.downgraded.snapshot) :: rest) r.downgraded.released none
  | query (hl : r.lock.holder = some me) (hd : r.removed = false) (hf : r.isStale now = true) :
      Turn me now r none [.locks, .asks (.backend (.state r.machine))] r (some .querying)
  | sample (x : Machine.State) {rest : List Deed} (hrest : ∀ d ∈ rest, d.EndsCheck) :
      Turn me now r (some .querying)
        (.hears (.backend (.state r.machine)) (.ok x) :: .reports (some (r.sampled x now).downgraded.snapshot) :: rest)
        (r.sampled x now).downgraded.released none
  | fail (f : Failure) {rest : List Deed} (hrest : ∀ d ∈ rest, d.EndsCheck) :
      Turn me now r (some .querying)
        (.hears (.backend (.state r.machine)) (.error f) :: .reports (some r.downgraded.snapshot) :: rest)
        r.downgraded.released none

namespace Turn
variable {me : Strand} {now : Nat} {r r' : Record} {w w' : Option Work} {ds : List Deed}

theorem holder (h : Turn me now r none ds r' w') : r.lock.holder = some me := by
  cases h <;> assumption

/-- A strand that works afterwards leaves the record as it is. -/
theorem eq_of_work {x : Work} (h : Turn me now r w ds r' (some x)) : r' = r := by
  cases h <;> rfl

end Turn

/-- The end of a call that put a record into the directory or took it out. -/
inductive Passing : List Deed → Prop
  | enroll (spec : Sandbox.Spec) (suffix : UInt32) (id : String) : Passing [.ends (.create spec suffix) (.ok id)]
  | forget (id : String) : Passing [.ends (.remove id) (.ok ())]

/-- What a step of a strand does to the records. `i` is the record at which it is noted. -/
inductive Touch (me : Strand) (s : Store) (p : Running) (i : Option Nat) (ds : List Deed) (q : Running) (t : Store) :
    Prop
  /-- Nothing. -/
  | away (hi : i = none ∨ ds = []) (ht : t.records = s.records) (hp : p.work? me = none) (hq : q.work? me = none)
  /-- Nothing, though the call that ends was about a record. -/
  | pass {j : Nat} (hi : i = some j) (hd : Passing ds) (ht : t.records = s.records) (hp : p.work? me = none)
      (hq : q.work? me = none)
  /-- It makes a new one. -/
  | born (hi : i = some s.records.length) {spec : Sandbox.Spec} {machine : Machine.Handle} {address : Address}
      {agent : Connection} (hd : ds = [.hears (.connect address) (.ok agent)])
      (ht : t.records = s.records ++ [Record.new spec machine address agent s.now]) (hp : p.work? me = none)
      (hq : q.work? me = none)
  /-- It asks for the lock of one. -/
  | request {j : Nat} (hd : ds = []) (ht : t = s.requestLock j me) (hp : p.work? me = none) (hq : q.work? me = none)
  /-- It takes its turn at one. -/
  | turn {j : Nat} (hi : i = some j) {r r' : Record} (hr : s.records[j]? = some r) {w w' : Option Work}
      (h : Turn me s.now r w ds r' w') (ht : t.records = s.records.set j r') (hp : p.work? me = w.map (j, ·))
      (hq : q.work? me = w'.map (j, ·))

/-! ### Every step touches -/

theorem work?_ofCheck {id : String} {check : Check} {me : Strand} :
    Running.work? ⟨.status id, Point.ofCheck id check⟩ me = check.work? := by
  cases check with
  | settled status => cases status <;> rfl
  | _ => rfl

theorem work?_ofChecks {filter : Sandbox.Filter} {checks : List Check} {me : Strand} :
    Running.work? ⟨.list filter, Point.ofChecks filter checks⟩ me = checks[me.part]?.bind Check.work? := by
  obtain ⟨reports, rfl, h⟩ | ⟨-, h⟩ := Point.ofChecks_cases filter checks
  · rw [h, List.getElem?_map]
    cases reports[me.part]? <;> rfl
  · rw [h]
    rfl

theorem endsCheck_of_ofCheck {id : String} {check : Check} :
    ∀ d ∈ (Point.ofCheck id check).ending, d.EndsCheck := by
  intro d hd
  cases hp : Point.ofCheck id check with
  | finished result =>
    rw [hp] at hd
    exact .inl ⟨id, result, List.mem_singleton.mp hd⟩
  | _ => rw [hp] at hd; cases hd

theorem endsCheck_of_ofChecks {filter : Sandbox.Filter} {checks : List Check} :
    ∀ d ∈ (Point.ofChecks filter checks).ending, d.EndsCheck := by
  intro d hd
  cases hp : Point.ofChecks filter checks with
  | finished result =>
    rw [hp] at hd
    exact .inr ⟨filter, result, List.mem_singleton.mp hd⟩
  | _ => rw [hp] at hd; cases hd

theorem ending_ofChecks_set {filter : Sandbox.Filter} {checks : List Check} {n : Nat} {check : Check}
    (hn : n < checks.length) (hc : check.report? = none) :
    (Point.ofChecks filter (checks.set n check)).ending = [] := by
  obtain ⟨reports, h, -⟩ | ⟨-, h⟩ := Point.ofChecks_cases filter (checks.set n check)
  · have hs := List.getElem?_set_self (a := check) hn
    rw [h, List.getElem?_map, Option.map_eq_some_iff] at hs
    obtain ⟨report, -, rfl⟩ := hs
    cases hc
  · rw [h]
    rfl

theorem set_self {α : Type} {l : List α} {i : Nat} {x : α} (h : l[i]? = some x) : l = l.set i x := by
  obtain ⟨hi, rfl⟩ := List.getElem?_eq_some_iff.mp h
  exact (List.set_getElem_self hi).symm

theorem Touch.of_check {me : Strand} {s t : Store} {check next : Check} {ds tail : List Deed} {p q : Running}
    {i : Option Nat} (h : check.Pace me s ds next t) (hp : p.work? me = check.work?) (hq : q.work? me = next.work?)
    (hi : i = check.record?) (htail : ∀ d ∈ tail, d.EndsCheck) (hgoes : next.report? = none → tail = []) :
    Touch me s p i (ds ++ tail) q t := by
  cases h with
  | arrive j =>
    rw [hgoes rfl]
    exact .request rfl rfl hp hq
  | refuse hr hl hd => exact .turn hi hr (.refuse hl hd (.check htail)) rfl hp hq
  | fresh hr hl hd hf => exact .turn hi hr (.fresh hl hd hf htail) rfl hp hq
  | query hr hl hd hf =>
    rw [hgoes rfl]
    exact .turn hi hr (.query hl hd hf) (set_self hr) hp hq
  | sample hr x => exact .turn hi hr (.sample x htail) rfl hp hq
  | fail hr f => exact .turn hi hr (.fail f htail) rfl hp hq

theorem Pace.touch {backend : String} {me : Strand} {s t : Store} {p q : Running} {ds : List Deed}
    (h : Pace backend me s p ds q t) :
    Touch me s p ((p.point.record? me).or (q.point.record? me)) ds q t := by
  cases h with
  | provision hv => exact .away (.inl rfl) rfl rfl rfl
  | provisioned machine => exact .away (.inl rfl) rfl rfl rfl
  | unprovisioned f => exact .away (.inl rfl) rfl rfl rfl
  | addressed address rest => exact .away (.inl rfl) rfl rfl rfl
  | unaddressed found hw => exact .away (.inl rfl) rfl rfl rfl
  | connected agent => exact .born rfl rfl rfl rfl rfl
  | unconnected f => exact .away (.inl rfl) rfl rfl rfl
  | discarded a => exact .away (.inl rfl) rfl rfl rfl
  | enter hg => exact .away (.inr rfl) rfl rfl rfl
  | enroll id i => exact .pass rfl (.enroll _ _ id) rfl rfl rfl
  | forget id i =>
    refine .pass rfl (.forget _) ?_ rfl rfl
    split <;> rfl
  | stopFound hi => exact .away (.inr rfl) rfl rfl rfl
  | stopMissing hi => exact .away (.inl rfl) rfl rfl rfl
  | removeFound hi => exact .away (.inr rfl) rfl rfl rfl
  | removeMissing hi => exact .away (.inl rfl) rfl rfl rfl
  | statusFound hi => exact .away (.inr rfl) rfl rfl rfl
  | statusMissing hi => exact .away (.inl rfl) rfl rfl rfl
  | @listed filter =>
    have hq : Running.work? ⟨.list filter, Point.ofChecks filter ((Point.listed s filter).map .arriving)⟩ me = none := by
      rw [work?_ofChecks, List.getElem?_map]
      cases (Point.listed s filter)[me.part]? <;> rfl
    obtain ⟨reports, -, h⟩ | ⟨-, h⟩ := Point.ofChecks_cases filter ((Point.listed s filter).map .arriving)
    · exact .away (.inl (by rw [h]; rfl)) rfl rfl hq
    · exact .away (.inr (by rw [h]; rfl)) rfl rfl hq
  | told hc result => exact .away (.inl rfl) rfl rfl rfl
  | arrive i => exact .request rfl rfl rfl rfl
  | stopRefused hr hl hd => exact .turn rfl hr (.refuse hl hd (.stop _)) rfl rfl rfl
  | stopped hr hl hd => exact .turn rfl hr (.stop hl hd _) rfl rfl rfl
  | removeRefused hr hl hd => exact .turn rfl hr (.refuse hl hd (.remove _)) rfl rfl rfl
  | destroy hr hl hd => exact .turn rfl hr (.destroy hl hd) (set_self hr) rfl rfl
  | destroyed hr => exact .turn rfl hr .destroyed (set_self hr) rfl rfl
  | undestroyed hr f => exact .turn rfl hr (.undestroyed _ f) rfl rfl rfl
  | closed hr => exact .turn rfl hr .close rfl rfl rfl
  | @check id check next ds t h =>
    refine .of_check h rfl work?_ofCheck ?_ endsCheck_of_ofCheck fun hn => ?_
    · cases h <;> rfl
    · cases next with
      | settled status => cases hn
      | _ => rfl
  | @gather filter checks check next ds t hc h =>
    have hl := (List.getElem?_eq_some_iff.mp hc).1
    refine .of_check h ?_ ?_ ?_ endsCheck_of_ofChecks (ending_ofChecks_set hl)
    · simp [Running.work?, Point.check?, hc]
    · rw [work?_ofChecks, List.getElem?_set_self hl]
      rfl
    · cases h <;> simp [Point.record?, Point.check?, hc, Check.record?]

end PodMachines.Pods
