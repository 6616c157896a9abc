import PodMachines.Proofs.Pods.Life
import PodMachines.Proofs.Pods.Own

/-! When a sandbox is reported ready: as long as no stop of it has completed and every answered query found its
    machine running. A record keeps this of all that it has gone through in its lifecycle, and its sample is
    running while it is ready. -/

namespace PodMachines.Pods

def Deed.stops : Deed → Bool
  | .ends (.stop _) (.ok ()) => true
  | _ => false

/-- No stop completed, and every answered query found the machine running. -/
def Unharmed (ns : List Note) : Prop :=
  ∀ e ∈ ns, e.deed.stops = false ∧ ∀ x, e.deed.found? = some x → x = .running

@[simp] theorem unharmed_append {ns more : List Note} : Unharmed (ns ++ more) ↔ Unharmed ns ∧ Unharmed more := by
  simp only [Unharmed, List.mem_append]
  constructor
  · intro h
    exact ⟨fun e he => h e (.inl he), fun e he => h e (.inr he)⟩
  · rintro ⟨h, h'⟩ e (he | he)
    · exact h e he
    · exact h' e he

/-- What a report says at a point of the chronicle. -/
def Truthful (pre : List Note) (e : Note) : Prop :=
  ∀ status, e.deed.told? = some status →
    (status.state = .ready ↔ Unharmed pre) ∧ (status.state = .ready → status.machine = .running)

/-- What a record keeps of its chronicle. -/
structure Ready (ns : List Note) (r : Record) : Prop where
  lifecycle : r.lifecycle = .ready ↔ Unharmed ns
  sample : r.lifecycle = .ready → r.sample = .running
  reports : Throughout Truthful ns

/-- Whether neither a completed stop nor an answered query is noted, and no status is reported. -/
def Deed.Quiet (d : Deed) : Prop :=
  d.stops = false ∧ d.found? = none ∧ d.told? = none

theorem Deed.EndsCheck.quiet {d : Deed} (h : d.EndsCheck) : d.Quiet := by
  obtain ⟨id, result, rfl⟩ | ⟨filter, result, rfl⟩ := h <;> exact ⟨rfl, rfl, rfl⟩

theorem Refusal.quiet {ds : List Deed} (h : Refusal ds) : ∀ d ∈ ds, d.Quiet := by
  cases h with
  | stop id => simp [Deed.Quiet, Deed.stops, Deed.found?, Deed.told?, Point.missing]
  | remove id => simp [Deed.Quiet, Deed.stops, Deed.found?, Deed.told?]
  | check hrest =>
    refine List.forall_mem_cons.mpr ⟨⟨rfl, rfl, rfl⟩, fun d hd => (hrest d hd).quiet⟩

theorem Passing.quiet {ds : List Deed} (h : Passing ds) : ∀ d ∈ ds, d.Quiet := by
  cases h <;> simp [Deed.Quiet, Deed.stops, Deed.found?, Deed.told?]

namespace Ready
variable {ns : List Note} {r r' : Record}

theorem congr (h : Ready ns r) (hl : r'.lifecycle = r.lifecycle) (hs : r'.sample = r.sample) : Ready ns r' where
  lifecycle := hl ▸ h.lifecycle
  sample hready := hs ▸ h.sample (hl ▸ hready)
  reports := h.reports

/-- A record that is ready stays so, for its machine was last seen running. -/
theorem downgraded (h : Ready ns r) : Ready ns r.downgraded := by
  unfold Record.downgraded
  split
  · exact h
  · rename_i hs
    have hl : r.lifecycle ≠ .ready := fun hready => hs (by rw [h.sample hready]; rfl)
    refine ⟨?_, fun hready => (nomatch hready), h.reports⟩
    rw [← h.lifecycle]
    exact ⟨fun hready => (nomatch hready), fun hready => absurd hready hl⟩

variable (now : Nat) (me : Strand) (i : Option Nat)

theorem quiet (h : Ready ns r) {ds : List Deed} (hd : ∀ d ∈ ds, d.Quiet) :
    Ready (ns ++ ds.map fun d => ⟨now, me, i, d⟩) r := by
  have hunharmed : Unharmed (ds.map fun d => ⟨now, me, i, d⟩) := by
    intro e he
    obtain ⟨d, hmem, rfl⟩ := List.mem_map.mp he
    obtain ⟨hstops, hfound, -⟩ := hd d hmem
    exact ⟨hstops, fun x hx => (nomatch hfound.symm.trans hx)⟩
  refine ⟨?_, h.sample, throughout_append.mpr ⟨h.reports, throughout_of_forall fun e he pre status hs => ?_⟩⟩
  · rw [unharmed_append, h.lifecycle]
    exact ⟨fun hns => ⟨hns, hunharmed⟩, fun hns => hns.1⟩
  · obtain ⟨d, hmem, rfl⟩ := List.mem_map.mp he
    cases (hd d hmem).2.2.symm.trans hs

theorem quiet_singleton (h : Ready ns r) {d : Deed} (hd : d.Quiet) : Ready (ns ++ [⟨now, me, i, d⟩]) r :=
  h.quiet now me i (List.forall_mem_singleton.mpr hd)

theorem stopped (h : Ready ns r) (id : String) :
    Ready (ns ++ [⟨now, me, i, .ends (.stop id) (.ok ())⟩]) { r with lifecycle := .notReady } := by
  refine ⟨?_, fun hready => (nomatch hready), throughout_append.mpr ⟨h.reports, ?_⟩⟩
  · rw [unharmed_append]
    refine ⟨fun hready => (nomatch hready), fun hns => ?_⟩
    cases (hns.2 _ (List.mem_singleton_self _)).1
  · exact throughout_cons.mpr ⟨fun status hs => (nomatch hs), throughout_nil⟩

/-- An answered query ends readiness unless it found the machine running. -/
theorem sampled (h : Ready ns r) (machine : Machine.Handle) (x : Machine.State) (taken : Nat) :
    Ready (ns ++ [⟨now, me, i, .hears (.backend (.state machine)) (.ok x)⟩]) (r.sampled x taken).downgraded := by
  have hfound : Unharmed [⟨now, me, i, .hears (.backend (.state machine)) (.ok x)⟩] ↔ x = .running := by
    simp [Unharmed, Deed.stops, Deed.found?]
  have hreports : Throughout Truthful (ns ++ [⟨now, me, i, .hears (.backend (.state machine)) (.ok x)⟩]) :=
    throughout_append.mpr ⟨h.reports, throughout_cons.mpr ⟨fun status hs => (nomatch hs), throughout_nil⟩⟩
  by_cases hx : x = .running
  · subst hx
    refine ⟨?_, fun _ => rfl, hreports⟩
    rw [unharmed_append, hfound]
    exact ⟨fun hready => ⟨h.lifecycle.mp hready, rfl⟩, fun hns => h.lifecycle.mpr hns.1⟩
  · have hd : (r.sampled x taken).downgraded = { r.sampled x taken with lifecycle := .notReady } := by
      unfold Record.downgraded
      rw [if_neg (by cases x <;> simp_all [Record.sampled, Machine.State.isRunning])]
    rw [hd]
    refine ⟨?_, fun hready => (nomatch hready), hreports⟩
    rw [unharmed_append, hfound]
    exact ⟨fun hready => (nomatch hready), fun hns => absurd hns.2 hx⟩

theorem reported (h : Ready ns r) : Ready (ns ++ [⟨now, me, i, .reports (some r.snapshot)⟩]) r := by
  refine ⟨?_, h.sample, throughout_append.mpr ⟨h.reports, throughout_cons.mpr ⟨?_, throughout_nil⟩⟩⟩
  · rw [unharmed_append, h.lifecycle]
    refine ⟨fun hns => ⟨hns, ?_⟩, fun hns => hns.1⟩
    intro e he
    obtain rfl := List.mem_singleton.mp he
    exact ⟨rfl, fun x hx => (nomatch hx)⟩
  · intro status hs
    cases hs
    simp only [List.append_nil]
    exact ⟨h.lifecycle, h.sample⟩

end Ready

/-- A record keeps what it went through in its lifecycle, all its life. -/
theorem Life.ready {i now : Nat} {ns : List Note} {r : Record} {w : Option (Nat × Work)} (h : Life i now ns r w) :
    Ready ns r := by
  induction h with
  | born me now spec machine address agent =>
    refine ⟨?_, fun _ => rfl, throughout_cons.mpr ⟨fun status hs => (nomatch hs), throughout_nil⟩⟩
    refine ⟨fun _ e he => ?_, fun _ => rfl⟩
    obtain rfl := List.mem_singleton.mp he
    exact ⟨rfl, fun x hx => (nomatch hx)⟩
  | later h hn ih => exact ih
  | request h me ih => exact ih.congr rfl rfl
  | pass h me hd ih => exact ih.quiet _ me (some i) hd.quiet
  | @turn now ns r r' me w w' ds h ht ih =>
    have locks := ih.quiet_singleton now me (some i) (d := .locks) ⟨rfl, rfl, rfl⟩
    cases ht with
    | refuse hl hd hrest =>
      rw [List.map_cons, List.append_cons]
      exact (locks.quiet now me (some i) hrest.quiet).congr rfl rfl
    | stop hl hd id =>
      rw [List.map_cons, List.append_cons]
      exact (locks.stopped now me (some i) id).congr rfl rfl
    | fresh hl hd hf hrest =>
      rw [List.map_cons, List.append_cons, List.map_cons, List.append_cons]
      exact ((locks.downgraded.reported now me (some i)).quiet now me (some i) fun d hd => (hrest d hd).quiet).congr
        rfl rfl
    | sample x hrest =>
      rw [List.map_cons, List.append_cons, List.map_cons, List.append_cons]
      have found := ih.sampled now me (some i) r.machine x now
      exact ((found.reported now me (some i)).quiet now me (some i) fun d hd => (hrest d hd).quiet).congr rfl rfl
    | fail f hrest =>
      rw [List.map_cons, List.append_cons, List.map_cons, List.append_cons]
      have heard := ih.quiet_singleton now me (some i) (d := .hears (.backend (.state r.machine)) (.error f))
        ⟨rfl, rfl, rfl⟩
      exact ((heard.downgraded.reported now me (some i)).quiet now me (some i) fun d hd => (hrest d hd).quiet).congr
        rfl rfl
    | _ => exact (ih.quiet now me (some i) (by simp [Deed.Quiet, Deed.stops, Deed.found?, Deed.told?])).congr rfl rfl

/-! ### What is told of a sandbox -/

section
variable {backend : String} {catalog : Option String} {now : Nat} {log : List Note} {s : System} {i : Nat}
  {pre mid post : List Note} {e e' : Note} {status status' : Sandbox.Status}

theorem Run.truthful (h : Run (.new backend catalog now) log s) (hs : chronicle i log = pre ++ e :: post) :
    Truthful pre e := by
  cases hr : s.store.records[i]? with
  | none =>
    rw [h.chronicle_eq_nil (List.getElem?_eq_none_iff.mp hr)] at hs
    cases pre <;> cases hs
  | some r =>
    obtain ⟨w, -, hlife⟩ := h.life hr
    exact hlife.ready.reports pre e post hs

theorem Run.state_steady (h : Run (.new backend catalog now) log s) (hs : chronicle i log = pre ++ e :: mid ++ e' :: post)
    (ht : e.deed.told? = some status) (ht' : e'.deed.told? = some status')
    (hmid : ∀ n ∈ mid, n.deed.stops = false ∧ n.deed.found? = none) : status'.state = status.state := by
  have first := (h.truthful (by rw [hs, List.append_assoc]; rfl) status ht).1
  have second := (h.truthful hs status' ht').1
  have quiet : Unharmed (e :: mid) := by
    refine List.forall_mem_cons.mpr ⟨?_, fun n hn => ⟨(hmid n hn).1, fun x hx => (nomatch (hmid n hn).2.symm.trans hx)⟩⟩
    rw [Deed.told?_eq_some.mp ht]
    exact ⟨rfl, fun x hx => (nomatch hx)⟩
  have : status'.state = .ready ↔ status.state = .ready := by
    rw [first, second, unharmed_append]
    exact ⟨fun hns => hns.1, fun hns => ⟨hns, quiet⟩⟩
  cases hstate : status.state with
  | ready => exact this.mpr hstate
  | notReady =>
    cases hstate' : status'.state with
    | notReady => rfl
    | ready =>
      rw [this.mp hstate'] at hstate
      cases hstate

end

/-- What the statuses that are told in a run say of readiness, by the chronicles of the records they are about. -/
structure ReadinessExact (log : List Note) (s : System) : Prop where
  /-- Every query is on a record, and is of the machine of that record. -/
  own : ∀ n ∈ log, ∀ machine, n.deed.probes? = some machine →
    ∃ i r, n.record = some i ∧ s.store.records[i]? = some r ∧ r.machine = machine
  /-- What a call tells was reported of a record that was made with the id, at a point of its chronicle, and says
      ready exactly if up to that point no stop completed and every answered query found the machine running. -/
  told : ∀ {call : Nat} {status : Sandbox.Status}, s.Tells call status → ∃ i b pre e post,
    s.store.origins i = some b ∧ b.id = status.id ∧ chronicle i log = pre ++ e :: post ∧ e.strand.call = call ∧
      e.deed.told? = some status ∧ (status.state = .ready ↔ Unharmed pre)
  /-- So it is with every report, told or not. -/
  exact : ∀ {i : Nat} {pre post : List Note} {e : Note} {status : Sandbox.Status},
    chronicle i log = pre ++ e :: post → e.deed.told? = some status → (status.state = .ready ↔ Unharmed pre)
  /-- What is ready runs. -/
  running : ∀ {i : Nat} {pre post : List Note} {e : Note} {status : Sandbox.Status},
    chronicle i log = pre ++ e :: post → e.deed.told? = some status → status.state = .ready → status.machine = .running
  /-- What is not ready is never ready again. -/
  lasting : ∀ {i : Nat} {pre mid post : List Note} {e e' : Note} {status status' : Sandbox.Status},
    chronicle i log = pre ++ e :: mid ++ e' :: post → e.deed.told? = some status → e'.deed.told? = some status' →
      status.state = .notReady → status'.state = .notReady
  /-- Without a completed stop and an answered query in between, be there failed ones, the state stays. -/
  steady : ∀ {i : Nat} {pre mid post : List Note} {e e' : Note} {status status' : Sandbox.Status},
    chronicle i log = pre ++ e :: mid ++ e' :: post → e.deed.told? = some status → e'.deed.told? = some status' →
      (∀ n ∈ mid, n.deed.stops = false ∧ n.deed.found? = none) → status'.state = status.state

theorem readiness_exact {backend : String} {catalog : Option String} {now : Nat} {log : List Note} {s : System}
    (h : Run (.new backend catalog now) log s) : ReadinessExact log s := by
  refine ⟨fun n hn machine hd => h.record_of_probes hn hd, ?_, ?_, ?_, ?_, ?_⟩
  · intro call status ht
    obtain ⟨i, b, hb, hid, e, he, hcall, htold⟩ := h.reported ht
    obtain ⟨pre, post, hs⟩ := List.append_of_mem he
    exact ⟨i, b, pre, e, post, hb, hid, hs, hcall, htold, (h.truthful hs status htold).1⟩
  · intro i pre post e status hs ht
    exact (h.truthful hs status ht).1
  · intro i pre post e status hs ht
    exact (h.truthful hs status ht).2
  · intro i pre mid post e e' status status' hs ht ht' hn
    have first := (h.truthful (by rw [hs, List.append_assoc]; rfl) status ht).1
    have second := (h.truthful hs status' ht').1
    cases hstate : status'.state with
    | notReady => rfl
    | ready =>
      have := first.mpr (unharmed_append.mp (second.mp hstate)).1
      rw [hn] at this
      cases this
  · exact h.state_steady

/-- In the tour a list tells that a sandbox is ready whose machine did not answer, and a status after its stop that
    it is not, though its machine runs. -/
theorem readiness_exact_tour :
    ReadinessExact Tour.log Tour.final ∧
      Tour.final.Tells 3 ⟨"kept", Tour.spec, 0, Tour.address, .ready, .running⟩ ∧
      Tour.final.Tells 8 ⟨"kept", Tour.spec, 0, Tour.address, .notReady, .running⟩ :=
  ⟨readiness_exact Tour.run, .inr ⟨.everything, _, rfl, .tail _ (.head _)⟩, .inl ⟨"kept", rfl⟩⟩

end PodMachines.Pods
