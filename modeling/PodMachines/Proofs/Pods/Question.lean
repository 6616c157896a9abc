import PodMachines.Proofs.Pods.Maker

/-! What strands ask of others. A strand asks the same until it is answered. A call that gives the id of a sandbox asks
    nothing before the id has led it to a record. -/

namespace PodMachines.Pods

/-- A strand that a call has asks others. -/
def System.Asks (s : System) (me : Strand) (request : Request) : Prop :=
  s.request? me = some request ∧ me.part < s.strandCount me.call

section
variable {me you : Strand} {s t : Store} {c : Call} {request : Request}

theorem Check.request?_mono {check : Check} (hg : s.origins.Grows t.origins) (h : check.request? s = some request) :
    check.request? t = some request := by
  cases check with
  | refreshing i =>
    obtain ⟨r, hr, rfl⟩ := Option.map_eq_some_iff.mp h
    obtain ⟨r', hr', ho⟩ := Option.map_eq_some_iff.mp (hg i _ (Store.origins_eq hr))
    have hm : r'.machine = r.machine := congrArg Origin.machine ho
    simp only [request?, hr', Option.map_some, hm]
  | _ => cases h

/-- What is asked does not depend on what becomes of records. -/
theorem Point.request?_mono {p : Point c} (hg : s.origins.Grows t.origins) (h : p.request? me s = some request) :
    p.request? me t = some request := by
  have grown {i : Nat} {r : Record} (hr : s.records[i]? = some r) :
      ∃ r', t.records[i]? = some r' ∧ r'.machine = r.machine ∧ r'.agent = r.agent := by
    obtain ⟨r', hr', ho⟩ := Option.map_eq_some_iff.mp (hg i _ (Store.origins_eq hr))
    exact ⟨r', hr', congrArg Origin.machine ho, congrArg Origin.agent ho⟩
  cases p with
  | destroying i =>
    obtain ⟨r, hr, rfl⟩ := Option.map_eq_some_iff.mp h
    obtain ⟨r', hr', hm, -⟩ := grown hr
    simp only [request?, hr', Option.map_some, hm]
  | closing i =>
    obtain ⟨r, hr, rfl⟩ := Option.map_eq_some_iff.mp h
    obtain ⟨r', hr', -, ha⟩ := grown hr
    simp only [request?, hr', Option.map_some, ha]
  | checking check => exact Check.request?_mono hg h
  | gathering checks =>
    obtain ⟨check, hc, h⟩ := Option.bind_eq_some_iff.mp h
    exact Option.bind_eq_some_iff.mpr ⟨check, hc, Check.request?_mono hg h⟩
  | _ => exact h

/-- While a strand asks others, only another check of its list can go on. -/
theorem Point.advance_of_asks {p q : Point c} (h : p.request? me s = some request)
    (ha : p.advance you s = some (q, t)) : (⟨c, p⟩ : Running).gathers = true ∧ you.part ≠ me.part := by
  cases p with
  | gathering checks =>
    refine ⟨rfl, fun heq => ?_⟩
    obtain ⟨check, hc, h⟩ := Option.bind_eq_some_iff.mp h
    cases c with
    | list filter =>
      simp only [advance, heq, hc, Option.map_eq_some_iff] at ha
      obtain ⟨next, hn, -⟩ := ha
      cases check with
      | refreshing i => cases hn
      | _ => cases h
    | _ => cases ha
  | checking check =>
    cases c with
    | status id =>
      obtain ⟨next, hn, -⟩ := Option.map_eq_some_iff.mp ha
      cases check with
      | refreshing i => cases hn
      | _ => cases h
    | _ => cases ha
  | destroying i => cases c <;> cases ha
  | closing i => cases c <;> cases ha
  | provisioning spec => cases c <;> cases ha
  | addressing machine => cases c <;> cases ha
  | connecting machine address => cases c <;> cases ha
  | discarding machine why => cases c <;> cases ha
  | _ => cases h

/-- While a check of a list asks others, the list goes on when another one does, and the check asks the same. -/
theorem Pace.asks {backend : String} {p q : Running} {ds : List Deed} (h : Pace backend you s p ds q t)
    (hg : p.gathers = true) (hne : you.part ≠ me.part) (hr : p.point.request? me s = some request) :
    ∃ filter checks next, p = ⟨.list filter, .gathering checks⟩ ∧
      q = ⟨.list filter, .gathering (checks.set you.part next)⟩ ∧
      q.point.request? me t = some request := by
  have hgrows := h.grows
  cases h with
  | @gather filter checks check next ds t hc h =>
    have hq : (Point.ofChecks filter (checks.set you.part next)).request? me t = some request := by
      rw [Point.request?_ofChecks, List.getElem?_set_ne hne]
      obtain ⟨own, ho, hr⟩ := Option.bind_eq_some_iff.mp hr
      exact Option.bind_eq_some_iff.mpr ⟨own, ho, Check.request?_mono hgrows hr⟩
    obtain ⟨reports, -, hf⟩ | ⟨-, hf⟩ := Point.ofChecks_cases filter (checks.set you.part next)
    · rw [hf] at hq
      cases hq
    · rw [hf] at hq ⊢
      exact ⟨filter, checks, next, rfl, rfl, hq⟩
  | _ => cases hg

end

section
variable {s t : System} {me : Strand} {request : Request}

theorem System.request?_of_call {c : Call} {p : Point c} (hp : s.calls[me.call]? = some ⟨c, p⟩) :
    s.request? me = p.request? me s.store := by
  rw [request?, hp]
  rfl

theorem System.part_eq_zero {p : Running} (hp : s.calls[me.call]? = some p) (hg : p.gathers = false)
    (h : me.part < s.strandCount me.call) : me.part = 0 := by
  rw [strandCount, hp] at h
  obtain ⟨c, p⟩ := p
  cases p with
  | gathering checks => cases hg
  | finished result => exact absurd h (Nat.not_lt_zero _)
  | _ => exact Nat.lt_one_iff.mp h

theorem System.Asks.call (h : s.Asks me request) :
    ∃ c, ∃ p : Point c, s.calls[me.call]? = some ⟨c, p⟩ ∧ p.request? me s.store = some request := by
  obtain ⟨⟨c, p⟩, hp, hr⟩ := Option.bind_eq_some_iff.mp h.1
  exact ⟨c, p, hp, hr⟩

theorem System.Asks.move (h : s.Asks me request) {m : Move} (hm : s.move? m = some t)
    (hans : ∀ {you : Strand} {other : Request} {a : other.Answer}, m = .answer you other a →
      you ≠ me ∧ you.part < s.strandCount you.call) : t.Asks me request := by
  obtain ⟨c, p, hp, hr⟩ := h.call
  -- The call goes on, but another strand of it, or it does not.
  have paced {you : Strand} {p' q : Running} {ds : List Deed} {st : Store} (hp' : s.calls[you.call]? = some p')
      (hq : Pace s.backend you s.store p' ds q st)
      (hsame : you.call = me.call → p'.gathers = true ∧ you.part ≠ me.part) : (s.after you q st).Asks me request := by
    by_cases hcall : you.call = me.call
    · obtain ⟨hg, hne⟩ := hsame hcall
      rw [hcall] at hp'
      obtain rfl := Option.some.inj (hp'.symm.trans hp)
      obtain ⟨filter, checks, next, heq, rfl, hr'⟩ := hq.asks hg hne hr
      have hplace : (s.after you ⟨.list filter, .gathering (checks.set you.part next)⟩ st).calls[me.call]? =
          some ⟨.list filter, .gathering (checks.set you.part next)⟩ := by
        rw [System.after, hcall, List.getElem?_set_self (List.getElem?_eq_some_iff.mp hp).1]
      refine ⟨(System.request?_of_call hplace).trans hr', ?_⟩
      have hpart := h.2
      rw [strandCount, hp, heq] at hpart
      rw [strandCount, hplace]
      simpa using hpart
    · have hplace : (s.after you q st).calls[me.call]? = s.calls[me.call]? := List.getElem?_set_ne hcall
      refine ⟨?_, ?_⟩
      · rw [System.request?_of_call (hplace.trans hp)]
        exact Point.request?_mono hq.grows hr
      · rw [strandCount, hplace]
        exact h.2
  cases m with
  | start c' =>
    cases hm
    have hplace : (s.start c').calls[me.call]? = s.calls[me.call]? :=
      List.getElem?_append_left (List.getElem?_eq_some_iff.mp hp).1
    refine ⟨(System.request?_of_call (hplace.trans hp)).trans hr, ?_⟩
    rw [strandCount, hplace]
    exact h.2
  | pass milliseconds =>
    cases hm
    exact ⟨(System.request?_of_call hp).trans (Point.request?_mono (fun _ _ hb => hb) hr), h.2⟩
  | enableImageBoot =>
    cases hm
    exact ⟨(System.request?_of_call hp).trans (Point.request?_mono (fun _ _ hb => hb) hr), h.2⟩
  | advance you =>
    obtain ⟨p', q, ds, st, hp', rfl, -, hq⟩ := System.pace_of_advance hm
    refine paced hp' hq fun hcall => ?_
    simp only [move?, System.advance, hp'] at hm
    obtain ⟨⟨q', st'⟩, ha, -⟩ := Option.map_eq_some_iff.mp hm
    rw [hcall] at hp'
    obtain rfl := Option.some.inj (hp'.symm.trans hp)
    exact Point.advance_of_asks hr ha
  | answer you other a =>
    obtain ⟨hne, hpart⟩ := hans rfl
    obtain ⟨p', q, ds, st, hp', rfl, -, hq⟩ := System.pace_of_answer hm
    refine paced hp' hq fun hcall => ?_
    have hparts : you.part ≠ me.part := fun heq => hne (by cases you; cases me; cases hcall; cases heq; rfl)
    refine ⟨?_, hparts⟩
    cases hg : p'.gathers with
    | true => rfl
    | false =>
      have hp'' := hp'
      rw [hcall, hp] at hp''
      obtain rfl := Option.some.inj hp''
      exact absurd ((part_eq_zero hp' hg hpart).trans (part_eq_zero hp hg h.2).symm) hparts

end

/-- A call that asks others stays where it is, unless it makes checks, until it is answered. -/
theorem System.call_of_move {s t : System} {m : Move} (hm : s.move? m = some t) {n : Nat} {c : Call} {p : Point c}
    {me : Strand} {request : Request} (hp : s.calls[n]? = some ⟨c, p⟩) (hr : p.request? me s.store = some request)
    (hg : (⟨c, p⟩ : Running).gathers = false) : t.calls[n]? = some ⟨c, p⟩ ∨
      ∃ you other, ∃ a : other.Answer, ∃ q ds st, m = .answer you other a ∧ you.call = n ∧ t.calls[n]? = some q ∧
        Pace s.backend you s.store ⟨c, p⟩ (.hears other a :: ds) q st := by
  have hn := (List.getElem?_eq_some_iff.mp hp).1
  cases m with
  | start c' =>
    cases hm
    exact .inl ((List.getElem?_append_left hn).trans hp)
  | pass milliseconds =>
    cases hm
    exact .inl hp
  | enableImageBoot =>
    cases hm
    exact .inl hp
  | advance you =>
    obtain ⟨p', q, ds, st, hp', rfl, -, hq⟩ := pace_of_advance hm
    by_cases hyou : you.call = n
    · subst hyou
      obtain rfl := Option.some.inj (hp'.symm.trans hp)
      simp only [move?, advance, hp] at hm
      obtain ⟨next, ha, -⟩ := Option.map_eq_some_iff.mp hm
      cases hg.symm.trans (Point.advance_of_asks hr ha).1
    · exact .inl ((List.getElem?_set_ne hyou).trans hp)
  | answer you other a =>
    obtain ⟨p', q, ds, st, hp', rfl, -, hq⟩ := pace_of_answer hm
    by_cases hyou : you.call = n
    · subst hyou
      obtain rfl := Option.some.inj (hp'.symm.trans hp)
      exact .inr ⟨you, other, a, q, ds, st, rfl, rfl, List.getElem?_set_self hn, hq⟩
    · exact .inl ((List.getElem?_set_ne hyou).trans hp)

theorem System.finished_of_move {s t : System} {m : Move} (hm : s.move? m = some t) {n : Nat} {c : Call}
    {result : c.Result} (hp : s.calls[n]? = some ⟨c, .finished result⟩) : t.calls[n]? = some ⟨c, .finished result⟩ := by
  have hn := (List.getElem?_eq_some_iff.mp hp).1
  have hg := goes_of_move hm
  generalize s.notes m = ns at hg
  cases hg with
  | start c' => exact (List.getElem?_append_left hn).trans hp
  | @pace me p' q ds st hp' hq =>
    by_cases hme : me.call = n
    · subst hme
      obtain rfl := Option.some.inj (hp'.symm.trans hp)
      cases hq.ending_eq_nil
    · exact (List.getElem?_set_ne hme).trans hp
  | pass milliseconds => exact hp
  | enableImageBoot => exact hp

/-! ### Machines that are got -/

/-- A strand gets a machine only as the answer to its question for one. -/
theorem Pace.machine?_eq_none {backend : String} {me : Strand} {s t : Store} {p q : Running} {ds : List Deed}
    (h : Pace backend me s p ds q t) : (∀ d ∈ ds, d.machine? = none) ∨
      ∃ (spec : Sandbox.Spec) (suffix : UInt32) (vm : Machine.Spec) (machine : Machine.Handle),
      p = ⟨.create spec suffix, .provisioning vm⟩ ∧
        ds = [.hears (.backend (.provision vm)) (.ok machine), .asks (.backend (.addresses machine))] := by
  have ending {c : Call} (q : Point c) : ∀ d ∈ q.ending, d.machine? = none := by
    cases q <;> simp [Point.ending, Deed.machine?]
  have checked {check next : Check} {ds : List Deed} {t : Store} (h : check.Pace me s ds next t) :
      ∀ d ∈ ds, d.machine? = none := by
    cases h <;> simp [Deed.machine?]
  have both {ds more : List Deed} (h : ∀ d ∈ ds, d.machine? = none) (h' : ∀ d ∈ more, d.machine? = none) :
      ∀ d ∈ ds ++ more, d.machine? = none :=
    fun d hd => (List.mem_append.mp hd).elim (h d) (h' d)
  cases h with
  | provisioned machine => exact .inr ⟨_, _, _, machine, rfl, rfl⟩
  | listed => exact .inl (ending _)
  | check h => exact .inl (both (checked h) (ending _))
  | gather hc h => exact .inl (both (checked h) (ending _))
  | _ => exact .inl (by simp [Deed.machine?])

/-- A move gets a machine only if it is the answer to a question for one. -/
theorem System.machine?_of_move {s t : System} {m : Move} (hm : s.move? m = some t) :
    (∀ n ∈ s.notes m, n.deed.machine? = none) ∨ ∃ me vm machine time i,
      m = .answer me (.backend (.provision vm)) (.ok machine) ∧
        s.notes m = [⟨time, me, i, .hears (.backend (.provision vm)) (.ok machine)⟩,
          ⟨time, me, i, .asks (.backend (.addresses machine))⟩] := by
  have noted {me : Strand} {i : Option Nat} {ds : List Deed} (h : ∀ d ∈ ds, d.machine? = none) :
      ∀ n ∈ ds.map fun d => (⟨s.store.now, me, i, d⟩ : Note), n.deed.machine? = none := by
    intro n hn
    obtain ⟨d, hd, rfl⟩ := List.mem_map.mp hn
    exact h d hd
  cases m with
  | answer me request a =>
    obtain ⟨p, q, ds, st, hp, -, hns, hq⟩ := pace_of_answer hm
    rw [hns]
    obtain hnone | ⟨spec, suffix, vm, machine, -, hds⟩ := hq.machine?_eq_none
    · exact .inl (noted hnone)
    · obtain ⟨hfirst, rfl⟩ := List.cons.inj hds
      cases hfirst
      exact .inr ⟨me, vm, machine, _, _, rfl, rfl⟩
  | advance me =>
    obtain ⟨p, q, ds, st, hp, -, hns, hq⟩ := pace_of_advance hm
    rw [hns]
    obtain hnone | ⟨spec, suffix, vm, machine, rfl, -⟩ := hq.machine?_eq_none
    · exact .inl (noted hnone)
    · -- A strand that asks for a machine only goes on when it is answered.
      simp only [move?, advance, hp] at hm
      cases hm
  | _ => exact .inl fun n hn => absurd hn List.not_mem_nil

/-! ### Ids that are given -/

/-- The id of a sandbox that a call gives. -/
def Call.id? : Call → Option String
  | .stop id | .remove id | .status id | .agent id | .address id => some id
  | .list filter => filter.id
  | .create .. | .ids => none

section
variable {backend : String} {you : Strand} {s t : Store} {p q : Running} {ds : List Deed} {id : String} {i : Nat}

theorem Check.Pace.record?_eq_some {check next : Check} (h : check.Pace you s ds next t) (hi : next.record? = some i) :
    check.record? = some i := by
  cases h with
  | arrive => exact hi
  | query => exact hi
  | _ => cases hi

theorem Point.record?_ofCheck {id : String} {check : Check} {k : Strand}
    (h : (ofCheck id check).record? k = some i) : check.record? = some i := by
  cases check with
  | settled status => cases status <;> cases h
  | _ => exact h

theorem Point.record?_ofChecks {filter : Sandbox.Filter} {checks : List Check} {k : Strand}
    (h : (ofChecks filter checks).record? k = some i) :
    ∃ check, checks[k.part]? = some check ∧ check.record? = some i := by
  obtain ⟨reports, -, hf⟩ | ⟨-, hf⟩ := ofChecks_cases filter checks
  · rw [hf] at h
    cases h
  · rw [hf] at h
    exact Option.bind_eq_some_iff.mp h

/-- A call that gives an id comes to a record only from the directory, where the id leads to the record. -/
theorem Pace.record?_from (h : Pace backend you s p ds q t) (hid : p.call.id? = some id) {k : Strand}
    (hi : q.point.record? k = some i) :
    p.point.record? k = some i ∨ p.point = .inside .lookup ∧ s.directory.find? id = some i := by
  cases h with
  | enter => exact .inl hi
  | stopFound hfound =>
    cases hid
    cases hi
    exact .inr ⟨rfl, hfound⟩
  | removeFound hfound =>
    cases hid
    cases hi
    exact .inr ⟨rfl, hfound⟩
  | statusFound hfound =>
    cases hid
    cases hi
    exact .inr ⟨rfl, hfound⟩
  | @listed filter =>
    have hid : filter.id = some id := hid
    obtain ⟨check, hc, hi⟩ := Point.record?_ofChecks hi
    rw [Point.listed, hid, List.getElem?_map] at hc
    obtain ⟨j, hj, rfl⟩ := Option.map_eq_some_iff.mp hc
    cases hi
    exact .inr ⟨rfl, Option.mem_toList.mp (List.mem_of_getElem? hj)⟩
  | arrive => exact .inl hi
  | destroy => exact .inl hi
  | destroyed => exact .inl hi
  | closed => exact .inl hi
  | check h => exact .inl (h.record?_eq_some (Point.record?_ofCheck hi))
  | @gather filter checks check next ds t hc h =>
    obtain ⟨other, ho, hi⟩ := Point.record?_ofChecks hi
    refine .inl ?_
    show (checks[k.part]?).bind Check.record? = some i
    by_cases hk : you.part = k.part
    · rw [← hk, List.getElem?_set_self (List.getElem?_eq_some_iff.mp hc).1] at ho
      cases ho
      rw [← hk, hc]
      exact h.record?_eq_some hi
    · rw [List.getElem?_set_ne hk] at ho
      rw [ho]
      exact hi
  | provision | provisioned | unprovisioned | addressed | unaddressed | connected | unconnected | discarded | enroll =>
    cases hid
  | _ => cases hi

/-- Whether a machine is being made into a sandbox. -/
def Point.makes {c : Call} : Point c → Bool
  | .provisioning _ | .addressing _ | .connecting .. | .discarding .. => true
  | _ => false

/-- Whatever is asked is asked for a new sandbox, or at a record. -/
theorem Point.record?_of_asks {c : Call} {p : Point c} {me : Strand} {request : Request}
    (h : p.request? me s = some request) : p.makes = true ∨ ∃ i, p.record? me = some i := by
  cases p with
  | provisioning | addressing | connecting | discarding => exact .inl rfl
  | destroying i | closing i => exact .inr ⟨i, rfl⟩
  | checking check =>
    cases check with
    | refreshing i => exact .inr ⟨i, rfl⟩
    | _ => cases h
  | gathering checks =>
    obtain ⟨check, hc, h⟩ := Option.bind_eq_some_iff.mp h
    cases check with
    | refreshing i => exact .inr ⟨i, Option.bind_eq_some_iff.mpr ⟨_, hc, rfl⟩⟩
    | _ => cases h
  | _ => cases h

end

/-- A run passes a state, with what is noted from there on. -/
def Passes (first : System) (log : List Note) (t s : System) (since : List Note) : Prop :=
  ∃ earlier, log = earlier ++ since ∧ Run first earlier s ∧ Run s since t

theorem Passes.trans {first s t u : System} {log since more : List Note} (h : Passes first log t s since)
    (hr : Run t more u) : Passes first (log ++ more) u s (since ++ more) := by
  obtain ⟨earlier, rfl, hearlier, hsince⟩ := h
  exact ⟨earlier, List.append_assoc .., hearlier, hsince.trans hr⟩

theorem Passes.move {first s t u : System} {log since : List Note} (h : Passes first log t s since) {m : Move}
    (hm : t.move? m = some u) : Passes first (log ++ t.notes m) u s (since ++ t.notes m) :=
  h.trans (Run.rest.move m hm)

section
variable {backend : String} {catalog : Option String} {now : Nat} {log : List Note} {t : System} {id : String} {i : Nat}

/-- The id that a call gives has led it to a record, by which it goes on. -/
def Found (first : System) (log : List Note) (t : System) (n : Nat) (c : Call) (id : String) (i : Nat) : Prop :=
  ∃ s since, Passes first log t s since ∧ s.calls[n]? = some ⟨c, .inside .lookup⟩ ∧ s.store.directory.find? id = some i

theorem Found.trans {first u : System} {more : List Note} {n : Nat} {c : Call} (h : Found first log t n c id i)
    (hr : Run t more u) : Found first (log ++ more) u n c id i := by
  obtain ⟨s, since, hpass, hs⟩ := h
  exact ⟨s, _, hpass.trans hr, hs⟩

theorem Run.create_of_makes (h : Run (.new backend catalog now) log t) {n : Nat} {c : Call} {p : Point c}
    (hp : t.calls[n]? = some ⟨c, p⟩) (hmakes : p.makes = true) : ∃ spec suffix, c = .create spec suffix := by
  cases h.orderly.course hp with
  | @create spec suffix p es hes hc => exact ⟨spec, suffix, rfl⟩
  | list hc =>
    generalize account n log = ns at hc
    cases hc <;> cases hmakes
  | stop hes hc | remove hes hc | status hes hc | agent hes hc | address hes hc | ids hes hc =>
    cases hc <;> cases hmakes

/-- A call that gives an id and is at a record was led there by the id. -/
theorem Run.found (h : Run (.new backend catalog now) log t) {n : Nat} {c : Call} {p : Point c}
    (hp : t.calls[n]? = some ⟨c, p⟩) (hid : c.id? = some id) {k : Strand} (hi : p.record? k = some i) :
    Found (.new backend catalog now) log t n c id i := by
  induction h generalizing n c p k with
  | rest => cases hp
  | @move log t u h m hm ih =>
    have kept {c : Call} {p : Point c} (hp : t.calls[n]? = some ⟨c, p⟩) (hid : c.id? = some id)
        (hi : p.record? k = some i) : Found (.new backend catalog now) (log ++ t.notes m) u n c id i :=
      (ih hp hid hi).trans (Run.rest.move m hm)
    have hg := System.goes_of_move hm
    generalize hns : t.notes m = ns at hg
    cases hg with
    | start c' =>
      simp only [System.start, List.getElem?_append] at hp
      by_cases hn : n < t.calls.length
      · rw [if_pos hn] at hp
        exact hns ▸ kept hp hid hi
      · rw [if_neg hn] at hp
        cases List.mem_singleton.mp (List.mem_of_getElem? hp)
        cases c <;> cases hi
    | @pace me p₀ q ds st hp₀ hq =>
      by_cases hn : me.call = n
      · subst hn
        simp only [System.after, List.getElem?_set_self (List.getElem?_eq_some_iff.mp hp₀).1, Option.some.injEq] at hp
        subst hp
        obtain ⟨c₀, p₀⟩ := p₀
        obtain rfl : c = c₀ := hq.may.1
        rw [← hns]
        obtain hi | ⟨hlook, hdir⟩ := hq.record?_from hid hi
        · exact kept hp₀ hid hi
        · have hlook : p₀ = .inside .lookup := hlook
          subst hlook
          exact ⟨t, _, Passes.move ⟨log, (List.append_nil _).symm, h, .rest⟩ hm, hp₀, hdir⟩
      · simp only [System.after, List.getElem?_set_ne hn] at hp
        exact hns ▸ kept hp hid hi
    | pass milliseconds => exact hns ▸ kept hp hid hi
    | enableImageBoot => exact hns ▸ kept hp hid hi

/-- A call that gives an id asks others nothing before the id has led it to a record. -/
theorem Run.found_of_asks (h : Run (.new backend catalog now) log t) {me : Strand} {request : Request}
    (ha : t.Asks me request) : ∃ (c : Call) (p : Point c), t.calls[me.call]? = some ⟨c, p⟩ ∧
      ∀ id, c.id? = some id → ∃ i, Found (.new backend catalog now) log t me.call c id i := by
  obtain ⟨c, p, hp, hr⟩ := ha.call
  refine ⟨c, p, hp, fun id hid => ?_⟩
  obtain hmakes | ⟨i, hi⟩ := Point.record?_of_asks hr
  · obtain ⟨spec, suffix, rfl⟩ := h.create_of_makes hp hmakes
    cases hid
  · exact ⟨i, h.found hp hid hi⟩

end

/-! ### Answers -/

theorem Check.answer_of_asks {check : Check} {s : Store} {request : Request} (h : check.request? s = some request)
    (a : request.Answer) : ∃ next, check.answer s request a = some next := by
  cases check with
  | refreshing i =>
    obtain ⟨r, hr, rfl⟩ := Option.map_eq_some_iff.mp h
    simp only [answer, hr]
    cases a with
    | ok sample => exact ⟨_, rfl⟩
    | error f => exact ⟨_, rfl⟩
  | _ => cases h

section
variable {backend : String} {catalog : Option String} {now : Nat} {log : List Note} {s : System} {me : Strand}
  {request : Request}

theorem Run.answer_of_asks (h : Run (.new backend catalog now) log s) (hr : s.request? me = some request)
    (a : request.Answer) : ∃ t, s.answer me request a = some t := by
  obtain ⟨⟨c, p⟩, hp, hasks⟩ := Option.bind_eq_some_iff.mp hr
  have hasks : p.request? me s.store = some request := hasks
  have hnext : ∃ next, p.answer s.backend me s.store request a = some next := by
    cases h.orderly.course hp with
    | create hes hc =>
      cases hc with
      | provisioning vm =>
        cases hasks
        cases a <;> exact ⟨_, rfl⟩
      | addressing vm machine =>
        cases hasks
        exact ⟨_, rfl⟩
      | connecting vm machine address rest =>
        cases hasks
        cases a <;> exact ⟨_, rfl⟩
      | discarding vm hlost =>
        cases hasks
        exact ⟨_, rfl⟩
      | _ => cases hasks
    | remove hes hc =>
      cases hc with
      | destroying hb hid =>
        obtain ⟨r, -, rfl⟩ := Option.map_eq_some_iff.mp hasks
        cases a <;> exact ⟨_, rfl⟩
      | closing hb hid =>
        obtain ⟨r, -, rfl⟩ := Option.map_eq_some_iff.mp hasks
        exact ⟨_, rfl⟩
      | _ => cases hasks
    | status hes hc =>
      cases hc with
      | checking hb hid hc hn =>
        obtain ⟨next, hnext⟩ := Check.answer_of_asks hasks a
        exact ⟨_, Option.map_eq_some_iff.mpr ⟨next, hnext, rfl⟩⟩
      | _ => cases hasks
    | list hc =>
      generalize account me.call log = ns at hc
      cases hc with
      | gathering hrounds =>
        obtain ⟨check, hc, hasks⟩ := Option.bind_eq_some_iff.mp hasks
        obtain ⟨next, hnext⟩ := Check.answer_of_asks hasks a
        simp only [Point.answer, hc, hnext]
        exact ⟨_, rfl⟩
      | _ => cases hasks
    | stop hes hc | agent hes hc | address hes hc | ids hes hc => cases hc <;> cases hasks
  obtain ⟨next, hnext⟩ := hnext
  refine ⟨s.place me.call next, ?_⟩
  rw [System.answer, if_pos hr, hp]
  exact Option.map_eq_some_iff.mpr ⟨next, hnext, rfl⟩

theorem Run.list_of_gathering (h : Run (.new backend catalog now) log s) {k : Nat} {c : Call} {checks : List Check}
    (hp : s.calls[k]? = some ⟨c, .gathering checks⟩) : ∃ filter, c = .list filter := by
  cases h.orderly.course hp with
  | list hc => exact ⟨_, rfl⟩
  | create hes hc | remove hes hc | status hes hc | stop hes hc | agent hes hc | address hes hc | ids hes hc => cases hc

/-- Whoever asks is called: the one strand of a call, or one of those of a list. -/
theorem Run.asks (h : Run (.new backend catalog now) log s) (hr : s.request? me = some request)
    (hpart : me.part = 0 ∨ ∃ filter, ∃ p : Point (.list filter), s.calls[me.call]? = some ⟨.list filter, p⟩) :
    s.Asks me request := by
  obtain ⟨⟨c, p⟩, hp, hasks⟩ := Option.bind_eq_some_iff.mp hr
  have hasks : p.request? me s.store = some request := hasks
  refine ⟨hr, ?_⟩
  have gathered {checks : List Check} (hasks : checks[me.part]?.bind (Check.request? s.store) = some request) :
      me.part < checks.length := by
    obtain ⟨check, hc, -⟩ := Option.bind_eq_some_iff.mp hasks
    exact (List.getElem?_eq_some_iff.mp hc).1
  rw [System.strandCount, hp]
  obtain hzero | ⟨filter, p', hp'⟩ := hpart
  · cases p with
    | gathering checks => exact gathered hasks
    | finished result => cases hasks
    | _ => exact hzero ▸ Nat.one_pos
  · cases hp.symm.trans hp'
    cases h.orderly.course hp with
    | list hc =>
      generalize account me.call log = ns at hc
      cases hc with
      | gathering hrounds => exact gathered hasks
      | _ => cases hasks

end
end PodMachines.Pods
