import PodMachines.Proofs.Pods.Reports

/-! What is noted of machines and connections at a record. Main statement: what is asked or told at a record of the end
    or the state of a machine is of the machine that the record was made with, and what is asked or told of the end of a
    connection is of its agent; and states are asked for, and connections closed, at records only. -/

namespace PodMachines.Pods

/-- The machine whose destroy is asked for. -/
def Deed.dooms? : Deed → Option Machine.Handle
  | .asks (.backend (.destroy machine)) => some machine
  | _ => none

/-- The machine whose destroy succeeded. -/
def Deed.destroyed? : Deed → Option Machine.Handle
  | .hears (.backend (.destroy machine)) (.ok ()) => some machine
  | _ => none

/-- The machine whose state is asked for or told. -/
def Deed.probes? : Deed → Option Machine.Handle
  | .asks (.backend (.state machine)) | .hears (.backend (.state machine)) _ => some machine
  | _ => none

/-- The connection that is asked to close. -/
def Deed.closes? : Deed → Option Connection
  | .asks (.close agent) => some agent
  | _ => none

/-- The connection that is closed. -/
def Deed.closed? : Deed → Option Connection
  | .hears (.close agent) _ => some agent
  | _ => none

/-- The machine whose end or state, or the connection whose end, is asked for or told. -/
def Deed.names? : Deed → Option (Machine.Handle ⊕ Connection)
  | .asks (.backend (.destroy machine)) | .hears (.backend (.destroy machine)) _ => some (.inl machine)
  | .asks (.backend (.state machine)) | .hears (.backend (.state machine)) _ => some (.inl machine)
  | .asks (.close agent) | .hears (.close agent) _ => some (.inr agent)
  | _ => none

namespace Deed
variable {d : Deed} {machine : Machine.Handle} {agent : Connection}

theorem names?_of_destroyed? (h : d.destroyed? = some machine) : d.names? = some (.inl machine) := by
  unfold destroyed? at h
  split at h
  · rw [← Option.some.inj h, names?]
  · cases h

theorem names?_of_probes? (h : d.probes? = some machine) : d.names? = some (.inl machine) := by
  unfold probes? at h
  split at h
  · rw [← Option.some.inj h, names?]
  · rw [← Option.some.inj h, names?]
  · cases h

theorem names?_of_closes? (h : d.closes? = some agent) : d.names? = some (.inr agent) := by
  unfold closes? at h
  split at h
  · rw [← Option.some.inj h, names?]
  · cases h

theorem names?_of_closed? (h : d.closed? = some agent) : d.names? = some (.inr agent) := by
  unfold closed? at h
  split at h
  · rw [← Option.some.inj h, names?]
  · cases h

/-- Whether a deed asks for no state and closes no connection, and tells of none. -/
def Away (d : Deed) : Prop :=
  d.probes? = none ∧ d.closes? = none ∧ d.closed? = none

/-- Whether a deed names no machine and no connection but those of a record. -/
def Of (b : Origin) (d : Deed) : Prop :=
  ∀ x, d.names? = some x → x = .inl b.machine ∨ x = .inr b.agent

end Deed

/-- Whether what is noted at a record is of its own machine and agent, and nothing of states and connections is noted
    elsewhere. -/
inductive Own (o : Origins) : Entry → Prop
  | record {i : Nat} {b : Origin} {d : Deed} (hb : o i = some b) (hd : d.Of b) : Own o (some i, d)
  | away {d : Deed} (hd : d.Away) : Own o (none, d)

section
variable {backend : String} {o : Origins} {es : List Entry} {e : Entry} {b : Origin} {i : Nat} {ds : List Deed}

theorem own_of_away (h : ∀ d ∈ ds, d.Away) (he : e ∈ entries none ds) : Own o e := by
  obtain ⟨d, hd, rfl⟩ := List.mem_map.mp he
  exact .away (h d hd)

theorem own_of_record (hb : o i = some b) (h : ∀ d ∈ ds, d.Of b) (he : e ∈ entries (some i) ds) : Own o e := by
  obtain ⟨d, hd, rfl⟩ := List.mem_map.mp he
  exact .record hb (h d hd)

theorem Origins.Names.own {id : String} (h : o.Names i id) (hds : ∀ d ∈ ds, d.names? = none)
    (he : e ∈ entries (some i) ds) : Own o e := by
  obtain ⟨b, hb, -⟩ := h
  exact own_of_record hb (fun d hd x hx => nomatch (hds d hd).symm.trans hx) he

theorem Creation.own {spec : Sandbox.Spec} {suffix : UInt32} {p : Point (.create spec suffix)}
    (h : Creation backend o spec suffix p es) (he : e ∈ es) : Own o e := by
  have away {vm : Machine.Spec} {machine : Machine.Handle} {address : Address} {rest : List Address} :
      ∀ d ∈ provided vm machine ++ located machine address rest, d.Away := by
    simp [provided, located, Deed.Away, Deed.probes?, Deed.closes?, Deed.closed?]
  have made {origin : Origin} {k : Nat} {vm : Machine.Spec} {machine : Machine.Handle} {address : Address}
      {rest : List Address} {ds : List Deed} (hb : o k = some origin) (hds : ∀ d ∈ ds, d.names? = none)
      (he : e ∈ entries none (provided vm machine ++ located machine address rest) ++ entries (some k) ds) :
      Own o e := by
    rcases List.mem_append.mp he with he | he
    · exact own_of_away away he
    · exact Origins.Names.own ⟨origin, hb, rfl⟩ hds he
  cases h with
  | starting => cases he
  | connecting => exact own_of_away away he
  | discarding vm hl =>
    refine own_of_away ?_ he
    cases hl <;> simp [provided, located, Deed.Away, Deed.probes?, Deed.closes?, Deed.closed?]
  | discarded vm hl a =>
    refine own_of_away ?_ he
    cases hl <;> simp [provided, located, Deed.Away, Deed.probes?, Deed.closes?, Deed.closed?]
  | connected vm rest hb => exact made hb (by simp [Deed.names?]) he
  | enrolling vm rest hb => exact made hb (by simp [Deed.names?]) he
  | enrolled vm rest hb => exact made hb (by simp [Deed.names?]) he
  | _ =>
    refine own_of_away ?_ he
    simp [provided, Deed.Away, Deed.probes?, Deed.closes?, Deed.closed?]

theorem away_of_ends {c : Call} {result : c.Result} (he : e ∈ entries none [.ends c result]) : Own o e :=
  own_of_away (List.forall_mem_singleton.mpr ⟨rfl, rfl, rfl⟩) he

theorem Stopping.own {id : String} {p : Point (.stop id)} (h : Stopping o id p es) (he : e ∈ es) : Own o e := by
  cases h with
  | missing => exact away_of_ends he
  | refused hi => exact hi.own (by simp [Deed.names?]) he
  | stopped hi => exact hi.own (by simp [Deed.names?]) he
  | _ => cases he

theorem Removing.own {id : String} {p : Point (.remove id)} (h : Removing o id p es) (he : e ∈ es) : Own o e := by
  cases h with
  | missing => exact away_of_ends he
  | refused hi => exact hi.own (by simp [Deed.names?]) he
  | destroying hb hid => exact own_of_record hb (by simp [Deed.Of, Deed.names?]) he
  | undestroyed hb hid f => exact own_of_record hb (by simp [Deed.Of, Deed.names?]) he
  | closing hb hid => exact own_of_record hb (by simp [destroyed, Deed.Of, Deed.names?]) he
  | closed hb hid => exact own_of_record hb (by simp [destroyed, Deed.Of, Deed.names?]) he
  | forgetting hb hid => exact own_of_record hb (by simp [destroyed, Deed.Of, Deed.names?]) he
  | removed hb hid => exact own_of_record hb (by simp [destroyed, Deed.Of, Deed.names?]) he
  | _ => cases he

theorem Check.Course.of {check : Check} (h : check.Course b i ds) : ∀ d ∈ ds, d.Of b := by
  cases h <;> simp [Deed.Of, Deed.names?]

theorem Asking.own {id : String} {p : Point (.status id)} (h : Asking o id p es) (he : e ∈ es) : Own o e := by
  cases h with
  | missing => exact away_of_ends he
  | checking hb hid h hn => exact own_of_record hb h.of he
  | refused hb hid h =>
    exact own_of_record hb (List.forall_mem_append.mpr ⟨h.of, by simp [Deed.Of, Deed.names?]⟩) he
  | told hb hid h =>
    exact own_of_record hb (List.forall_mem_append.mpr ⟨h.of, by simp [Deed.Of, Deed.names?]⟩) he
  | _ => cases he

theorem Rounds.own {targets : List Nat} {checks : List Check} {ns : List Note} (h : Rounds o targets checks ns)
    {n : Note} (hn : n ∈ ns) : Own o n.entry := by
  obtain ⟨i, hi, hr⟩ := h.record n hn
  have hlt : n.strand.part < checks.length := h.length_eq ▸ (List.getElem?_eq_some_iff.mp hi).1
  obtain ⟨b, hb, hc⟩ := h.course hi (List.getElem?_eq_getElem hlt)
  rw [Note.entry, hr]
  exact .record hb (hc.of _ (mem_strandDeeds.mpr ⟨n, hn, rfl, rfl⟩))

theorem Listing.own {filter : Sandbox.Filter} {p : Point (.list filter)} {ns : List Note} (h : Listing o filter p ns)
    {n : Note} (hn : n ∈ ns) : Own o n.entry := by
  cases h with
  | gathering h => exact h.own hn
  | gathered h hi hend =>
    rcases List.mem_append.mp hn with hn | hn
    · exact h.own hn
    · obtain rfl := List.mem_singleton.mp hn
      rw [Note.entry, hend]
      cases hr : n.record with
      | none => exact .away ⟨rfl, rfl, rfl⟩
      | some i =>
        obtain ⟨b, hb⟩ := h.known (hi i hr)
        exact .record hb fun x hx => by cases hx
  | _ => cases hn

theorem Telling.own {c : Call} {p : Point c} (h : Telling c p es) (he : e ∈ es) : Own o e := by
  cases h with
  | told result => exact away_of_ends he
  | _ => cases he

theorem Course.own {ns : List Note} {p : Running} (h : Course backend o ns p) {n : Note} (hn : n ∈ ns) :
    Own o n.entry := by
  have he : n.entry ∈ ns.map Note.entry := List.mem_map_of_mem hn
  cases h with
  | create hes h => exact h.own (hes ▸ he)
  | stop hes h => exact h.own (hes ▸ he)
  | remove hes h => exact h.own (hes ▸ he)
  | status hes h => exact h.own (hes ▸ he)
  | list h => exact h.own hn
  | agent hes h => exact h.own (hes ▸ he)
  | address hes h => exact h.own (hes ▸ he)
  | ids hes h => exact h.own (hes ▸ he)

end

/-- What is noted at one record only is counted in its chronicle. -/
theorem countP_of_record {kind : Deed → Bool} {log : List Note} {i : Nat}
    (h : ∀ n ∈ log, kind n.deed = true → n.record = some i) :
    log.countP (fun n => kind n.deed) = (chronicle i log).countP fun n => kind n.deed := by
  rw [chronicle, List.countP_filter]
  refine List.countP_congr fun n hn => ?_
  simp only [Bool.and_eq_true, decide_eq_true_eq]
  exact ⟨fun hk => ⟨hk, h n hn hk⟩, fun hk => hk.1⟩

section
variable {backend : String} {catalog : Option String} {now : Nat} {log : List Note} {s : System} {n : Note} {i : Nat}
  {r : Record} {machine : Machine.Handle} {agent : Connection}

theorem Run.own (h : Run (.new backend catalog now) log s) (hn : n ∈ log) : Own s.store.origins n.entry := by
  obtain ⟨p, -, hc, hmem⟩ := h.course_of_mem hn
  exact hc.own hmem

/-- What is noted at a record names its machine and its agent only. -/
theorem Run.names (h : Run (.new backend catalog now) log s) (hr : s.store.records[i]? = some r)
    (hn : n ∈ chronicle i log) : n.deed.Of r.origin := by
  obtain ⟨hn, hi⟩ := mem_chronicle.mp hn
  have hown := h.own hn
  rw [Note.entry, hi] at hown
  cases hown with
  | record hb hd =>
    cases (Store.origins_eq hr).symm.trans hb
    exact hd

/-- States are asked for, and connections closed, at records. -/
theorem Run.record_of_not_away (h : Run (.new backend catalog now) log s) (hn : n ∈ log) (hd : ¬n.deed.Away) :
    ∃ i r, n.record = some i ∧ s.store.records[i]? = some r ∧ n.deed.Of r.origin := by
  have hown := h.own hn
  cases hi : n.record with
  | none =>
    rw [Note.entry, hi] at hown
    cases hown with
    | away haway => exact absurd haway hd
  | some i =>
    rw [Note.entry, hi] at hown
    cases hown with
    | record hb hof =>
      obtain ⟨r, hr, rfl⟩ := Option.map_eq_some_iff.mp hb
      exact ⟨i, r, rfl, hr, hof⟩

/-- The state of a machine is asked for and told at a record of it. -/
theorem Run.record_of_probes (h : Run (.new backend catalog now) log s) (hn : n ∈ log)
    (hd : n.deed.probes? = some machine) :
    ∃ i r, n.record = some i ∧ s.store.records[i]? = some r ∧ r.machine = machine := by
  obtain ⟨i, r, hi, hr, hof⟩ := h.record_of_not_away hn fun haway => nomatch haway.1.symm.trans hd
  obtain heq | heq := hof _ (Deed.names?_of_probes? hd)
  · exact ⟨i, r, hi, hr, (Sum.inl.inj heq).symm⟩
  · cases heq

/-- A connection is asked to close, and closed, at a record that has it to its agent. -/
theorem Run.record_of_closes (h : Run (.new backend catalog now) log s) (hn : n ∈ log)
    (hd : n.deed.closes? = some agent ∨ n.deed.closed? = some agent) :
    ∃ i r, n.record = some i ∧ s.store.records[i]? = some r ∧ r.agent = agent := by
  have haway : ¬n.deed.Away := by
    rintro ⟨-, hcloses, hclosed⟩
    rcases hd with hd | hd
    · cases hcloses.symm.trans hd
    · cases hclosed.symm.trans hd
  obtain ⟨i, r, hi, hr, hof⟩ := h.record_of_not_away hn haway
  have hnames : n.deed.names? = some (.inr agent) := hd.elim Deed.names?_of_closes? Deed.names?_of_closed?
  obtain heq | heq := hof _ hnames
  · cases heq
  · exact ⟨i, r, hi, hr, (Sum.inr.inj heq).symm⟩

end
end PodMachines.Pods
