import PodMachines.Proofs.Pods.Question
import PodMachines.Proofs.Pods.Removal

/-! Which machines the pods want ended: that of a create that comes to no sandbox, and that of a sandbox which a remove
    has found. Main statement: a machine whose sandbox was removed is not wanted ended again, when no machine is
    provisioned with the id of an earlier one. -/

namespace PodMachines.Pods

/-- Why the end of a machine is asked for. -/
inductive Wanted (s : System) (n : Nat) (machine : Machine.Handle) : Prop
  | discarded {spec : Sandbox.Spec} {suffix : UInt32} {why : Failure}
      (hp : s.calls[n]? = some ⟨.create spec suffix, .discarding machine why⟩)
  | removed {id : String} {i : Nat} {r : Record} (hp : s.calls[n]? = some ⟨.remove id, .destroying i⟩)
      (hr : s.store.records[i]? = some r) (hm : r.machine = machine) (hid : machine.id = id)

theorem Check.asks_state {check : Check} {s : Store} {request : Request} (h : check.request? s = some request) :
    ∃ machine, request = .backend (.state machine) := by
  cases check with
  | refreshing i =>
    obtain ⟨r, -, rfl⟩ := Option.map_eq_some_iff.mp h
    exact ⟨r.machine, rfl⟩
  | _ => cases h

section
variable {c : Call} {p : Point c} {me : Strand} {s : Store}

theorem Point.of_asks_provision {vm : Machine.Spec} (h : p.request? me s = some (.backend (.provision vm))) :
    p = .provisioning vm := by
  cases p with
  | provisioning vm =>
    cases h
    rfl
  | destroying i | closing i =>
    obtain ⟨r, -, heq⟩ := Option.map_eq_some_iff.mp h
    cases heq
  | checking check =>
    obtain ⟨machine, heq⟩ := Check.asks_state h
    cases heq
  | gathering checks =>
    obtain ⟨check, -, h⟩ := Option.bind_eq_some_iff.mp h
    obtain ⟨machine, heq⟩ := Check.asks_state h
    cases heq
  | _ => cases h

theorem Point.of_asks_destroy {machine : Machine.Handle} (h : p.request? me s = some (.backend (.destroy machine))) :
    (∃ why, p = .discarding machine why) ∨ ∃ i r, p = .destroying i ∧ s.records[i]? = some r ∧ r.machine = machine := by
  cases p with
  | discarding machine why =>
    cases h
    exact .inl ⟨why, rfl⟩
  | destroying i =>
    obtain ⟨r, hr, heq⟩ := Option.map_eq_some_iff.mp h
    cases heq
    exact .inr ⟨i, r, rfl, hr, rfl⟩
  | closing i =>
    obtain ⟨r, -, heq⟩ := Option.map_eq_some_iff.mp h
    cases heq
  | checking check =>
    obtain ⟨machine, heq⟩ := Check.asks_state h
    cases heq
  | gathering checks =>
    obtain ⟨check, -, h⟩ := Option.bind_eq_some_iff.mp h
    obtain ⟨machine, heq⟩ := Check.asks_state h
    cases heq
  | _ => cases h

end

section
variable {backend : String} {catalog : Option String} {now : Nat} {log : List Note} {s : System} {n : Nat} {id : String}
  {machine : Machine.Handle}

theorem Run.given_of_discarding (h : Run (.new backend catalog now) log s) {spec : Sandbox.Spec} {suffix : UInt32}
    {why : Failure} (hp : s.calls[n]? = some ⟨.create spec suffix, .discarding machine why⟩) :
    ∃ e ∈ log, ∃ vm, e.strand.call = n ∧ e.deed = .hears (.backend (.provision vm)) (.ok machine) := by
  cases h.orderly.course hp with
  | create hes hc =>
    cases hc with
    | @discarding vm machine ds why hlost =>
      have hmem : (none, .hears (.backend (.provision vm)) (.ok machine)) ∈ (account n log).map Note.entry := by
        rw [hes]
        exact mem_entries.mpr ⟨rfl, by simp [provided]⟩
      obtain ⟨e, he, hcall, -, hd⟩ := mem_account_entries.mp hmem
      exact ⟨e, he, vm, hcall, hd⟩

/-- A record was made of a machine with its id, which was given to the create that made the record. -/
theorem Run.given_of_origin (h : Run (.new backend catalog now) log s) {i : Nat} {b : Origin}
    (hb : s.store.origins i = some b) :
    b.machine.id = b.id ∧ ∃ e ∈ log, e.deed.machine? = some b.machine ∧ Maker log s e.strand.call i b := by
  obtain ⟨call, hmaker⟩ := h.maker hb
  obtain ⟨e, he, rfl, hm⟩ := hmaker.provisioned
  exact ⟨hmaker.named.symm, e, he, hm, hmaker⟩

/-- A strand that asks for the end of a machine is of a create that discards it, or of a remove with its id. -/
theorem Run.wanted (h : Run (.new backend catalog now) log s) {me : Strand}
    (ha : s.request? me = some (.backend (.destroy machine))) : Wanted s me.call machine := by
  obtain ⟨⟨c, p⟩, hp, hasks⟩ := Option.bind_eq_some_iff.mp ha
  have hasks : p.request? me s.store = some (.backend (.destroy machine)) := hasks
  obtain ⟨why, rfl⟩ | ⟨i, r, rfl, hr, rfl⟩ := Point.of_asks_destroy hasks
  · obtain ⟨spec, suffix, rfl⟩ := h.create_of_makes hp rfl
    exact .discarded hp
  · cases h.orderly.course hp with
    | remove hes hc =>
      cases hc with
      | destroying hb hid =>
        obtain ⟨hm, -⟩ := h.given_of_origin hb
        obtain rfl := Option.some.inj ((Store.origins_eq hr).symm.trans hb)
        exact .removed hp hr rfl (hm.trans hid)
    | list hc =>
      generalize account me.call log = ns at hc
      cases hc
    | create hes hc | stop hes hc | status hes hc | agent hes hc | address hes hc | ids hes hc => cases hc

theorem Run.removed_of_finished (h : Run (.new backend catalog now) log s)
    (hn : s.calls[n]? = some ⟨.remove id, .finished (.ok ())⟩) :
    ∃ (i : Nat) (r : Record), s.store.records[i]? = some r ∧ r.id = id ∧ r.removed = true := by
  cases h.orderly.course hn with
  | remove hes hc =>
    cases hc with
    | @removed i b hb hid =>
      obtain ⟨r, hr, rfl⟩ := Option.map_eq_some_iff.mp hb
      refine ⟨i, r, hr, hid, ?_⟩
      obtain ⟨w, -, hlife⟩ := h.life hr
      have hmem : (some i, .hears (.close r.origin.agent) ()) ∈ (account n log).map Note.entry := by
        rw [hes]
        exact mem_entries.mpr ⟨rfl, by simp⟩
      obtain ⟨e, he, -, hi, hd⟩ := mem_account_entries.mp hmem
      have hpos : 0 < (chronicle i log).countP (·.deed.closed) :=
        List.countP_pos_iff.mpr ⟨e, mem_chronicle.mpr ⟨he, hi⟩, by rw [hd]; rfl⟩
      rw [hlife.guarded.closed] at hpos
      cases hremoved : r.removed with
      | true => rfl
      | false =>
        rw [hremoved] at hpos
        cases hpos

theorem Run.not_wanted_again (h : Run (.new backend catalog now) log s) (hf : Fresh log)
    (hn : s.calls[n]? = some ⟨.remove id, .finished (.ok ())⟩) {k : Nat} (hw : Wanted s k machine) : machine.id ≠ id := by
  obtain ⟨i, r, hr, hid, hremoved⟩ := h.removed_of_finished hn
  obtain ⟨hm, e, he, hgiven, hmaker⟩ := h.given_of_origin (Store.origins_eq hr)
  rintro rfl
  cases hw with
  | discarded hp =>
    -- The create that made the record is no longer about to discard a machine.
    obtain ⟨e', he', vm, rfl, hd⟩ := h.given_of_discarding hp
    rw [hf.eq he' he (congrArg Deed.machine? hd) hgiven (hid.symm.trans hm.symm)] at hp
    obtain ⟨suffix, p, -, -, hp', hpos, -⟩ := hmaker.course
    cases hp.symm.trans hp'
    obtain hpos | hpos | hpos := hpos <;> cases hpos
  | @removed id' j r' hp hr' hm' hid' =>
    -- Nobody works at a record that was removed.
    obtain ⟨-, e', he', hgiven', hmaker'⟩ := h.given_of_origin (Store.origins_eq hr')
    have hsame : r'.machine.id = r.machine.id := by rw [hm']; exact hid.symm.trans hm.symm
    rw [hf.eq he' he hgiven' hgiven hsame] at hmaker'
    obtain rfl := hmaker'.record_eq hmaker
    cases hr'.symm.trans hr
    obtain ⟨w, hsits, hlife⟩ := h.life hr
    have hwork : s.work? ⟨k, 0⟩ = some (j, .destroying) := by rw [System.work?, hp]; rfl
    obtain rfl : w = some (k, .destroying) := (hsits _ _).mpr ⟨⟨k, 0⟩, rfl, hwork⟩
    cases hlife.guarded.unmarked.symm.trans hremoved

end

end PodMachines.Pods
