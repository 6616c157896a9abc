import PodMachines.Proofs.Pods.Life

/-! Which create made a record, and for which machine. Every record is made by one create, a create makes at most one
    record, and when no machine is provisioned with the id of an earlier one, whatever is noted of a machine is noted
    of the create that it was provisioned for, or at the record which that create made. -/

namespace PodMachines.Pods

/-! ### The birth of a record -/

def Deed.connects : Deed → Bool
  | .hears (.connect _) (.ok _) => true
  | _ => false

theorem Deed.EndsCheck.connects_eq {d : Deed} (h : d.EndsCheck) : d.connects = false := by
  obtain ⟨id, result, rfl⟩ | ⟨filter, result, rfl⟩ := h <;> rfl

theorem Turn.connects_eq {me : Strand} {now : Nat} {r r' : Record} {w w' : Option Work} {ds : List Deed}
    (h : Turn me now r w ds r' w') : ∀ d ∈ ds, d.connects = false := by
  have ends {rest : List Deed} (hrest : ∀ d ∈ rest, d.EndsCheck) : ∀ d ∈ rest, d.connects = false :=
    fun d hd => (hrest d hd).connects_eq
  cases h with
  | refuse hl hd hrest =>
    cases hrest with
    | check hrest => simpa [Deed.connects] using ends hrest
    | _ => simp [Deed.connects]
  | fresh hl hd hf hrest => simpa [Deed.connects] using ends hrest
  | sample x hrest => simpa [Deed.connects] using ends hrest
  | fail f hrest => simpa [Deed.connects] using ends hrest
  | _ => simp [Deed.connects]

/-- The chronicle of a record begins with the answer of its agent, and no agent answers in it again. -/
theorem Life.born_once {i now : Nat} {ns : List Note} {r : Record} {w : Option (Nat × Work)} (h : Life i now ns r w) :
    ∃ t me rest, ns = ⟨t, me, some i, .hears (.connect r.address) (.ok r.agent)⟩ :: rest ∧
      ∀ e ∈ rest, e.deed.connects = false := by
  -- Every step adds to the end of the chronicle.
  have more {now : Nat} {me : Strand} {ns rest : List Note} {e : Note} {ds : List Deed} (heq : ns = e :: rest)
      (hrest : ∀ e ∈ rest, e.deed.connects = false) (hds : ∀ d ∈ ds, d.connects = false) :
      ∃ rest, (ns ++ ds.map fun d => ⟨now, me, some i, d⟩) = e :: rest ∧ ∀ e ∈ rest, e.deed.connects = false := by
    refine ⟨rest ++ ds.map fun d => ⟨now, me, some i, d⟩, by rw [heq]; rfl, fun e he => ?_⟩
    rcases List.mem_append.mp he with he | he
    · exact hrest e he
    · obtain ⟨d, hd, rfl⟩ := List.mem_map.mp he
      exact hds d hd
  induction h with
  | born me now spec machine address agent => exact ⟨now, me, [], rfl, fun e he => nomatch he⟩
  | later h hn ih => exact ih
  | request h me ih => exact ih
  | pass h me hd ih =>
    obtain ⟨t, you, rest, heq, hrest⟩ := ih
    exact ⟨t, you, more heq hrest (by cases hd <;> simp [Deed.connects])⟩
  | turn h ht ih =>
    obtain ⟨t, you, rest, heq, hrest⟩ := ih
    refine ⟨t, you, ?_⟩
    have haddress := congrArg Origin.address ht.origin_eq
    have hagent := congrArg Origin.agent ht.origin_eq
    simp only [Record.origin] at haddress hagent
    rw [haddress, hagent]
    exact more heq hrest ht.connects_eq

/-! ### The create that made a record -/

/-- The create that made a record, how it goes on, and what is noted of it. `b` is what it made the record with. -/
structure Maker (log : List Note) (s : System) (call i : Nat) (b : Origin) : Prop where
  origin : s.store.origins i = some b
  named : b.id = b.machine.id
  course : ∃ suffix p vm rest, s.calls[call]? = some ⟨.create b.spec suffix, p⟩ ∧
    (p = .entering (.enroll b.id i) ∨ p = .inside (.enroll b.id i) ∨ p = .finished (.ok b.id)) ∧
    (account call log).map Note.entry = entries none (provided vm b.machine ++ located b.machine b.address rest) ++
      entries (some i) (.hears (.connect b.address) (.ok b.agent) :: p.ending)

theorem Creation.maker {backend : String} {o : Origins} {spec : Sandbox.Spec} {suffix : UInt32}
    {p : Point (.create spec suffix)} {es : List Entry} (h : Creation backend o spec suffix p es) {e : Entry}
    (he : e ∈ es) {i : Nat} (hi : e.1 = some i) :
    ∃ b vm rest, o i = some b ∧ b.spec = spec ∧ b.id = b.machine.id ∧
      (p = .entering (.enroll b.id i) ∨ p = .inside (.enroll b.id i) ∨ p = .finished (.ok b.id)) ∧
      es = entries none (provided vm b.machine ++ located b.machine b.address rest) ++
        entries (some i) (.hears (.connect b.address) (.ok b.agent) :: p.ending) := by
  cases h with
  | connected vm rest ho =>
    rcases List.mem_append.mp he with he | he <;> cases (mem_entries.mp he).1.symm.trans hi
    exact ⟨_, vm, rest, ho, rfl, rfl, .inl rfl, rfl⟩
  | enrolling vm rest ho =>
    rcases List.mem_append.mp he with he | he <;> cases (mem_entries.mp he).1.symm.trans hi
    exact ⟨_, vm, rest, ho, rfl, rfl, .inr (.inl rfl), rfl⟩
  | enrolled vm rest ho =>
    rcases List.mem_append.mp he with he | he <;> cases (mem_entries.mp he).1.symm.trans hi
    exact ⟨_, vm, rest, ho, rfl, rfl, .inr (.inr rfl), rfl⟩
  | starting => cases he
  | _ => cases (mem_entries.mp he).1.symm.trans hi

theorem Call.of_connects {c : Call} {d : Deed} (h : c.may d = true) (hd : d.connects = true) :
    ∃ spec suffix, c = .create spec suffix := by
  unfold Deed.connects at hd
  split at hd
  · cases c with
    | create spec suffix => exact ⟨spec, suffix, rfl⟩
    | _ => cases h
  · cases hd

section
variable {backend : String} {catalog : Option String} {now : Nat} {log : List Note} {s : System} {call other i j : Nat}
  {b b' : Origin}

/-- A create of which something is noted at a record made the record. -/
theorem Run.maker_of_mem (h : Run (.new backend catalog now) log s) {e : Note} (he : e ∈ chronicle i log)
    {spec : Sandbox.Spec} {suffix : UInt32} {p : Point (.create spec suffix)}
    (hp : s.calls[e.strand.call]? = some ⟨.create spec suffix, p⟩) : ∃ b, Maker log s e.strand.call i b := by
  obtain ⟨he, hi⟩ := mem_chronicle.mp he
  cases h.orderly.course hp with
  | create hes hc =>
    have hmem : e.entry ∈ (account e.strand.call log).map Note.entry :=
      List.mem_map_of_mem (mem_account.mpr ⟨he, rfl⟩)
    obtain ⟨b, vm, rest, hb, rfl, hid, hpos, heq⟩ := hc.maker (hes ▸ hmem) hi
    exact ⟨b, hb, hid, suffix, p, vm, rest, hp, hpos, hes.trans heq⟩

theorem Run.maker (h : Run (.new backend catalog now) log s) (hb : s.store.origins i = some b) :
    ∃ call, Maker log s call i b := by
  obtain ⟨r, hr, rfl⟩ := Option.map_eq_some_iff.mp hb
  obtain ⟨w, -, hlife⟩ := h.life hr
  obtain ⟨t, me, rest, heq, -⟩ := hlife.born_once
  have hmem : ⟨t, me, some i, .hears (.connect r.address) (.ok r.agent)⟩ ∈ chronicle i log :=
    heq ▸ List.mem_cons_self ..
  obtain ⟨⟨c, p⟩, hp, -, hnoted⟩ := h.course_of_mem (mem_chronicle.mp hmem).1
  obtain ⟨spec, suffix, rfl⟩ := Call.of_connects (h.may hp _ hnoted) rfl
  obtain ⟨b, hm⟩ := h.maker_of_mem hmem hp
  obtain rfl : b = r.origin := Option.some.inj (hm.origin.symm.trans hb)
  exact ⟨me.call, hm⟩

theorem Maker.connected (h : Maker log s call i b) :
    ∃ e ∈ chronicle i log, e.strand.call = call ∧ e.deed = .hears (.connect b.address) (.ok b.agent) := by
  obtain ⟨suffix, p, vm, rest, -, -, hes⟩ := h.course
  have hmem : (some i, .hears (.connect b.address) (.ok b.agent)) ∈ (account call log).map Note.entry := by
    rw [hes]
    exact List.mem_append_right _ (mem_entries.mpr ⟨rfl, List.mem_cons_self ..⟩)
  obtain ⟨e, he, hcall, hi, hd⟩ := mem_account_entries.mp hmem
  exact ⟨e, mem_chronicle.mpr ⟨he, hi⟩, hcall, hd⟩

theorem Maker.call_eq (h : Run (.new backend catalog now) log s) (hm : Maker log s call i b)
    (hm' : Maker log s other i b') : call = other := by
  obtain ⟨r, hr, -⟩ := Option.map_eq_some_iff.mp hm.origin
  obtain ⟨w, -, hlife⟩ := h.life hr
  obtain ⟨t, me, rest, heq, hrest⟩ := hlife.born_once
  -- The answer of the agent, with which the chronicle begins, was given to the create.
  have born {k : Nat} {b : Origin} (hm : Maker log s k i b) : me.call = k := by
    obtain ⟨e, he, hcall, hd⟩ := hm.connected
    obtain rfl | he := List.mem_cons.mp (heq ▸ he)
    · exact hcall
    · cases (hrest e he).symm.trans (congrArg Deed.connects hd)
  exact (born hm).symm.trans (born hm')

theorem Maker.record_eq (hm : Maker log s call i b) (hm' : Maker log s call j b') : i = j := by
  obtain ⟨e, he, hcall, -⟩ := hm.connected
  obtain ⟨he, hi⟩ := mem_chronicle.mp he
  obtain ⟨suffix, p, vm, rest, -, -, hes⟩ := hm'.course
  have hmem : e.entry ∈ (account call log).map Note.entry := List.mem_map_of_mem (mem_account.mpr ⟨he, hcall⟩)
  rcases List.mem_append.mp (hes ▸ hmem) with hmem | hmem
  · cases hi.symm.trans (mem_entries.mp hmem).1
  · exact Option.some.inj (hi.symm.trans (mem_entries.mp hmem).1)

end

/-! ### Machines with ids of their own -/

def Deed.machine? : Deed → Option Machine.Handle
  | .hears (.backend (.provision _)) (.ok machine) => some machine
  | _ => none

theorem Deed.machine?_eq_some {d : Deed} {machine : Machine.Handle} :
    d.machine? = some machine ↔ ∃ vm, d = .hears (.backend (.provision vm)) (.ok machine) := by
  constructor
  · intro h
    unfold machine? at h
    split at h
    · cases h
      exact ⟨_, rfl⟩
    · cases h
  · rintro ⟨vm, rfl⟩
    rfl

def Note.given? (e : Note) : Option String :=
  e.deed.machine?.map (·.id)

/-- No machine is provisioned with the id of an earlier one. -/
def Fresh (log : List Note) : Prop :=
  (log.filterMap Note.given?).Nodup

instance (log : List Note) : Decidable (Fresh log) :=
  inferInstanceAs (Decidable (List.Nodup _))

theorem Fresh.of_append {log more : List Note} (h : Fresh (log ++ more)) : Fresh log := by
  unfold Fresh at h
  rw [List.filterMap_append] at h
  exact (List.nodup_append.mp h).1

theorem eq_of_nodup_filterMap {α β : Type} {f : α → Option β} {l : List α} (h : (l.filterMap f).Nodup) {x y : α}
    {k : β} (hx : x ∈ l) (hy : y ∈ l) (hfx : f x = some k) (hfy : f y = some k) : x = y := by
  induction l with
  | nil => cases hx
  | cons a l ih =>
    have head {z : α} (hfa : f a = some k) (hz : z ∈ l) (hfz : f z = some k) : False := by
      rw [List.filterMap_cons_some hfa, List.nodup_cons] at h
      exact h.1 (List.mem_filterMap.mpr ⟨z, hz, hfz⟩)
    have tail : (l.filterMap f).Nodup := ((List.sublist_cons_self a l).filterMap f).nodup h
    rcases List.mem_cons.mp hx with hxa | hxl
    · rcases List.mem_cons.mp hy with hya | hyl
      · rw [hxa, hya]
      · exact (head (hxa ▸ hfx) hyl hfy).elim
    · rcases List.mem_cons.mp hy with hya | hyl
      · exact (head (hya ▸ hfy) hxl hfx).elim
      · exact ih tail hxl hyl

theorem Fresh.eq {log : List Note} (h : Fresh log) {e e' : Note} (he : e ∈ log) (he' : e' ∈ log)
    {machine machine' : Machine.Handle} (hm : e.deed.machine? = some machine) (hm' : e'.deed.machine? = some machine')
    (hid : machine.id = machine'.id) : e = e' := by
  have hk : e.given? = some machine.id := congrArg _ hm
  have hk' : e'.given? = some machine'.id := congrArg _ hm'
  exact eq_of_nodup_filterMap h he he' hk (hid ▸ hk')

/-! ### What is noted of a machine -/

/-- The machine whose addresses or end are asked for or told. -/
def Deed.about? : Deed → Option Machine.Handle
  | .asks (.backend (.addresses machine)) | .hears (.backend (.addresses machine)) _ => some machine
  | .asks (.backend (.destroy machine)) | .hears (.backend (.destroy machine)) _ => some machine
  | _ => none

/-- A create notes nothing of a machine that was not provisioned for it. -/
theorem Creation.provisioned {backend : String} {o : Origins} {spec : Sandbox.Spec} {suffix : UInt32}
    {p : Point (.create spec suffix)} {es : List Entry} (h : Creation backend o spec suffix p es) {e : Entry}
    (he : e ∈ es) {machine : Machine.Handle} (hm : e.2.about? = some machine) :
    ∃ vm, (none, .hears (.backend (.provision vm)) (.ok machine)) ∈ es := by
  have hmem : machine ∈ es.filterMap (·.2.about?) := List.mem_filterMap.mpr ⟨e, he, hm⟩
  cases h with
  | starting => cases he
  | provisioning vm => cases hmem
  | unprovisioned vm f => cases hmem
  | addressing vm machine' =>
    obtain rfl : machine = machine' := List.mem_singleton.mp hmem
    exact ⟨vm, by simp [entries, provided]⟩
  | connecting vm machine' address rest =>
    obtain rfl : machine = machine' := by simpa [entries, provided, located, Deed.about?] using hmem
    exact ⟨vm, by simp [entries, provided]⟩
  | @discarding vm machine' ds why h =>
    obtain rfl : machine = machine' := by
      cases h <;> simpa [entries, provided, located, Deed.about?] using hmem
    exact ⟨vm, by simp [entries, provided]⟩
  | @discarded vm machine' ds why h a =>
    obtain rfl : machine = machine' := by
      cases h <;> simpa [entries, provided, located, Deed.about?] using hmem
    exact ⟨vm, by simp [entries, provided]⟩
  | @connected vm machine' address rest agent i now hi =>
    obtain rfl : machine = machine' := by simpa [entries, provided, located, Deed.about?] using hmem
    exact ⟨vm, by simp [entries, provided]⟩
  | @enrolling vm machine' address rest agent i now hi =>
    obtain rfl : machine = machine' := by simpa [entries, provided, located, Deed.about?] using hmem
    exact ⟨vm, by simp [entries, provided]⟩
  | @enrolled vm machine' address rest agent i now hi =>
    obtain rfl : machine = machine' := by simpa [entries, provided, located, Deed.about?] using hmem
    exact ⟨vm, by simp [entries, provided]⟩

/-- A remove notes nothing of a machine but that of the record. -/
theorem Removing.about {o : Origins} {id : String} {p : Point (.remove id)} {es : List Entry} (h : Removing o id p es)
    {e : Entry} (he : e ∈ es) {machine : Machine.Handle} (hm : e.2.about? = some machine) :
    ∃ i b, e.1 = some i ∧ o i = some b ∧ b.machine = machine := by
  have hmem : machine ∈ es.filterMap (·.2.about?) := List.mem_filterMap.mpr ⟨e, he, hm⟩
  have found {i : Nat} {b : Origin} {ds : List Deed} (hb : o i = some b) (hes : e ∈ entries (some i) ds)
      (heq : machine = b.machine) : ∃ i b, e.1 = some i ∧ o i = some b ∧ b.machine = machine :=
    ⟨i, b, (mem_entries.mp hes).1, hb, heq.symm⟩
  cases h with
  | destroying hb hid => exact found hb he (by simpa [entries, Deed.about?] using hmem)
  | undestroyed hb hid f => exact found hb he (by simpa [entries, Deed.about?] using hmem)
  | closing hb hid => exact found hb he (by simpa [entries, destroyed, Deed.about?] using hmem)
  | closed hb hid => exact found hb he (by simpa [entries, destroyed, Deed.about?] using hmem)
  | forgetting hb hid => exact found hb he (by simpa [entries, destroyed, Deed.about?] using hmem)
  | removed hb hid => exact found hb he (by simpa [entries, destroyed, Deed.about?] using hmem)
  | _ => cases hmem

theorem Call.of_about {c : Call} {d : Deed} (h : c.may d = true) {machine : Machine.Handle}
    (hd : d.about? = some machine) : (∃ spec suffix, c = .create spec suffix) ∨ ∃ id, c = .remove id := by
  cases c with
  | create spec suffix => exact .inl ⟨spec, suffix, rfl⟩
  | remove id => exact .inr ⟨id, rfl⟩
  | _ =>
    unfold Deed.about? at hd
    split at hd <;> cases hd <;> cases h

section
variable {backend : String} {catalog : Option String} {now : Nat} {log : List Note} {s : System}

/-- What is noted of a machine is noted of the create for which it was provisioned, or of a remove at its record. -/
theorem Run.about (h : Run (.new backend catalog now) log s) {n : Note} (hn : n ∈ log) {machine : Machine.Handle}
    (hm : n.deed.about? = some machine) :
    (∃ e ∈ log, e.strand.call = n.strand.call ∧ e.deed.machine? = some machine) ∨
      ∃ id p i b, s.calls[n.strand.call]? = some ⟨.remove id, p⟩ ∧ n.record = some i ∧
        s.store.origins i = some b ∧ b.machine = machine := by
  obtain ⟨⟨c, p⟩, hp, hc, hmem⟩ := h.course_of_mem hn
  have he : n.entry ∈ (account n.strand.call log).map Note.entry := List.mem_map_of_mem hmem
  obtain ⟨spec, suffix, rfl⟩ | ⟨id, rfl⟩ := Call.of_about (h.may hp n hmem) hm
  · cases hc with
    | create hes hc =>
      obtain ⟨vm, hprov⟩ := hc.provisioned (hes ▸ he) hm
      obtain ⟨e, he, hcall, -, hd⟩ := mem_account_entries.mp (hes ▸ hprov)
      exact .inl ⟨e, he, hcall, congrArg Deed.machine? hd⟩
  · cases hc with
    | remove hes hc =>
      obtain ⟨i, b, hi, hb, hmachine⟩ := hc.about (hes ▸ he) hm
      exact .inr ⟨id, p, i, b, hp, hi, hb, hmachine⟩

theorem Maker.provisioned {call i : Nat} {b : Origin} (h : Maker log s call i b) :
    ∃ e ∈ log, e.strand.call = call ∧ e.deed.machine? = some b.machine := by
  obtain ⟨suffix, p, vm, rest, -, -, hes⟩ := h.course
  have hmem : (none, .hears (.backend (.provision vm)) (.ok b.machine)) ∈ (account call log).map Note.entry := by
    rw [hes]
    exact List.mem_append_left _ (mem_entries.mpr ⟨rfl, by simp [provided]⟩)
  obtain ⟨e, he, hcall, -, hd⟩ := mem_account_entries.mp hmem
  exact ⟨e, he, hcall, congrArg Deed.machine? hd⟩

/-- A record of a machine was made by the create for which the machine was provisioned. -/
theorem Run.maker_of_machine (h : Run (.new backend catalog now) log s) (hf : Fresh log) {e : Note} (he : e ∈ log)
    {machine : Machine.Handle} (hm : e.deed.machine? = some machine) {i : Nat} {b : Origin}
    (hb : s.store.origins i = some b) (hid : b.machine.id = machine.id) : Maker log s e.strand.call i b := by
  obtain ⟨call, hmaker⟩ := h.maker hb
  obtain ⟨e', he', rfl, hm'⟩ := hmaker.provisioned
  rw [hf.eq he he' hm hm' hid.symm]
  exact hmaker

/-- What is noted of a machine is noted of its create, or of a remove at the record which its create made. -/
theorem Run.owner (h : Run (.new backend catalog now) log s) (hf : Fresh log) {e : Note} (he : e ∈ log)
    {machine : Machine.Handle} (hm : e.deed.machine? = some machine) {n : Note} (hn : n ∈ log)
    (hd : n.deed.about? = some machine) :
    n.strand.call = e.strand.call ∨ ∃ id p i b, s.calls[n.strand.call]? = some ⟨.remove id, p⟩ ∧
      n.record = some i ∧ Maker log s e.strand.call i b ∧ b.machine = machine := by
  obtain ⟨e', he', hcall, hm'⟩ | ⟨id, p, i, b, hp, hi, hb, rfl⟩ := h.about hn hd
  · rw [hf.eq he he' hm hm' rfl]
    exact .inl hcall.symm
  · exact .inr ⟨id, p, i, b, hp, hi, h.maker_of_machine hf he hm hb rfl, rfl⟩

end

end PodMachines.Pods
