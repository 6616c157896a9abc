import PodMachines.Proofs.Pods.Accounting
import PodMachines.Proofs.Pods.Interval

/-! Ids that are given again. A backend may give a new machine the id of one whose destroy has succeeded, at any time
    since, and so while the remove that asked for the destroy still goes on. One call at a time then owns the machine
    that is there under an id: when the next machine gets the id, the end of every earlier one has been asked for. -/

namespace PodMachines.Pods

/-! ### The machine that is there under an id -/

/-- A destroy fails. -/
def Deed.spared : Deed → Bool
  | .hears (.backend (.destroy _)) (.error _) => true
  | _ => false

/-- Whether a call is told that its destroy failed. -/
def fails (log : List Note) (call : Nat) : Bool :=
  log.any fun e => decide (e.strand.call = call) && e.deed.spared

/-- Whether a machine is there under an id after what is noted: one was provisioned, and its end was not asked for
    since, except by calls `T` whose destroys fail. -/
def alive (T : Nat → Bool) (id : String) (log : List Note) : Bool :=
  log.foldl (fun there e =>
    decide (e.given? = some id) ||
      (there && !(e.deed.dooms?.any (fun machine => decide (machine.id = id)) && !T e.strand.call))) false

/-- A machine is provisioned with an id only when none is there under it, if the destroys of the calls `T` fail. -/
def Spaced (T : Nat → Bool) (log : List Note) : Prop :=
  Throughout (fun pre e => ∀ id ∈ e.given?, alive T id pre = false) log

/-- An id is given again only when the destroy of the machine that had it succeeded, or will be found to have. -/
def Recycled (log : List Note) : Prop :=
  Spaced (fails log) log

instance decidableThroughout {P : List Note → Note → Prop} [h : ∀ pre e, Decidable (P pre e)] :
    (ns : List Note) → Decidable (Throughout P ns)
  | [] => isTrue throughout_nil
  | e :: ns =>
    have := decidableThroughout (P := fun pre => P (e :: pre)) ns
    decidable_of_iff (P [] e ∧ Throughout (fun pre => P (e :: pre)) ns) throughout_cons.symm

instance (log : List Note) : Decidable (Recycled log) :=
  inferInstanceAs (Decidable (Throughout _ log))

section
variable {T : Nat → Bool} {id : String} {log more : List Note}

theorem alive_concat (e : Note) : alive T id (log ++ [e]) =
    (decide (e.given? = some id) ||
      (alive T id log && !(e.deed.dooms?.any (fun machine => decide (machine.id = id)) && !T e.strand.call))) := by
  simp only [alive, List.foldl_append, List.foldl_cons, List.foldl_nil]

/-- What neither gives a machine nor ends one leaves the machines that are there. -/
theorem alive_append_of_quiet (h : ∀ e ∈ more, e.given? = none ∧ (e.deed.dooms? = none ∨ T e.strand.call = true)) :
    alive T id (log ++ more) = alive T id log := by
  induction more generalizing log with
  | nil => rw [List.append_nil]
  | cons e more ih =>
    obtain ⟨hg, hd⟩ := h e (List.mem_cons_self ..)
    rw [List.append_cons, ih fun e' he' => h e' (List.mem_cons_of_mem _ he'), alive_concat, hg]
    rcases hd with hd | hd <;> simp [hd]

theorem fails_append_left (h : fails log n = true) : fails (log ++ more) n = true := by
  unfold fails at h ⊢
  rw [List.any_append, h, Bool.true_or]

theorem fails_of_mem {e : Note} (he : e ∈ log) (hd : e.deed.spared = true) : fails log e.strand.call = true :=
  List.any_eq_true.mpr ⟨e, he, by simp [hd]⟩

end

/-! ### Destroys that are asked for -/

/-- A call that asks for the end of a machine is told what came of it. -/
def Told (ns : List Note) (d : Note) : Prop :=
  ∃ e ∈ ns, e.strand.call = d.strand.call ∧ (e.deed.spared = true ∨ e.deed.destroys = true)

/-- A strand waits with the lock until it is told of its destroy, so that nobody goes on with the record before. -/
structure Heard (ns : List Note) (w : Option (Nat × Work)) : Prop where
  dooms : ∀ d ∈ ns, d.deed.dooms?.isSome = true → w = some (d.strand.call, .destroying) ∨ Told ns d
  accepts : Throughout (fun pre e => e.deed.accepts = true → ∀ d ∈ pre, d.deed.dooms?.isSome = true → Told pre d) ns

theorem Told.append {ns : List Note} {d : Note} (h : Told ns d) (more : List Note) : Told (ns ++ more) d := by
  obtain ⟨e, he, hcall, hd⟩ := h
  exact ⟨e, List.mem_append_left _ he, hcall, hd⟩

/-- What is noted when all destroys before have been told of. -/
theorem Heard.append {ns more : List Note} {w w' : Option (Nat × Work)} (h : Heard ns w)
    (htold : ∀ d ∈ ns, d.deed.dooms?.isSome = true → Told ns d)
    (hd : ∀ d ∈ more, d.deed.dooms?.isSome = true → w' = some (d.strand.call, .destroying))
    (ha : Throughout (fun pre e => e.deed.accepts = true → ∀ d ∈ pre, d.deed.dooms? = none) more) :
    Heard (ns ++ more) w' where
  dooms := by
    intro d hmem hdooms
    rcases List.mem_append.mp hmem with hmem | hmem
    · exact .inr ((htold d hmem hdooms).append more)
    · exact .inl (hd d hmem hdooms)
  accepts := by
    refine throughout_append.mpr ⟨h.accepts, ha.imp fun pre e he haccepts d hmem hdooms => ?_⟩
    rcases List.mem_append.mp hmem with hmem | hmem
    · exact (htold d hmem hdooms).append pre
    · rw [he haccepts d hmem] at hdooms
      cases hdooms

theorem Deed.EndsCheck.dooms_eq {d : Deed} (h : d.EndsCheck) : d.dooms? = none := by
  rcases h with ⟨id, result, rfl⟩ | ⟨filter, result, rfl⟩ <;> rfl

theorem Refusal.dooms_eq {ds : List Deed} (h : Refusal ds) {d : Deed} (hd : d ∈ ds) : d.dooms? = none := by
  cases h with
  | check hrest =>
    rcases List.mem_cons.mp hd with rfl | hd
    · rfl
    · exact (hrest d hd).dooms_eq
  | _ =>
    rw [List.mem_singleton.mp hd]
    rfl

theorem Passing.dooms_eq {ds : List Deed} (h : Passing ds) {d : Deed} (hd : d ∈ ds) : d.dooms? = none := by
  cases h <;> rw [List.mem_singleton.mp hd] <;> rfl

theorem throughout_of_accepts {more : List Note} (h : ∀ e ∈ more, e.deed.dooms? = none) :
    Throughout (fun pre e => e.deed.accepts = true → ∀ d ∈ pre, d.deed.dooms? = none) more := by
  rintro pre e post rfl - d hd
  exact h d (List.mem_append_left _ hd)

theorem Life.heard {i now : Nat} {ns : List Note} {r : Record} {w : Option (Nat × Work)} (h : Life i now ns r w) :
    Heard ns w := by
  induction h with
  | born me now spec machine address agent =>
    refine ⟨fun d hd hdooms => ?_, throughout_of_forall fun e he pre ha => ?_⟩
    · rw [List.mem_singleton.mp hd] at hdooms
      cases hdooms
    · rw [List.mem_singleton.mp he] at ha
      cases ha
  | later h hn ih => exact ih
  | request h me ih => exact ih
  | @pass now ns r w h me ds hd ih =>
    refine ⟨fun d hmem hdooms => ?_, throughout_append.mpr ⟨ih.accepts, throughout_of_forall fun e he pre ha => ?_⟩⟩
    · rcases List.mem_append.mp hmem with hmem | hmem
      · exact (ih.dooms d hmem hdooms).imp_right fun ht => ht.append _
      · obtain ⟨d, hd', rfl⟩ := List.mem_map.mp hmem
        rw [show d.dooms? = none from hd.dooms_eq hd'] at hdooms
        cases hdooms
    · obtain ⟨d, hd', rfl⟩ := List.mem_map.mp he
      have hplain := (hd.plain d hd').2.2.2.1
      rw [show d.accepts = true from ha] at hplain
      cases hplain
  | @turn now ns r r' me w w' ds h ht ih =>
    -- The strand has been told of every destroy, unless it waits for one itself.
    have told (hw : w ≠ some .destroying) : ∀ d ∈ ns, d.deed.dooms?.isSome = true → Told ns d := by
      intro d hd hdooms
      rcases ih.dooms d hd hdooms with hw' | ht
      · obtain ⟨x, hx, heq⟩ := Option.map_eq_some_iff.mp hw'
        obtain rfl : x = .destroying := (Prod.mk.inj heq).2
        exact absurd hx hw
      · exact ht
    have quiet (hw : w ≠ some .destroying) (hds : ∀ d ∈ ds, d.dooms? = none) :
        Heard (ns ++ ds.map fun d => ⟨now, me, some i, d⟩) (w'.map (me.call, ·)) := by
      have hnone : ∀ e ∈ ds.map fun d => (⟨now, me, some i, d⟩ : Note), e.deed.dooms? = none := by
        intro e he
        obtain ⟨d, hd, rfl⟩ := List.mem_map.mp he
        exact hds d hd
      refine ih.append (told hw) (fun d hd hdooms => ?_) (throughout_of_accepts hnone)
      rw [hnone d hd] at hdooms
      cases hdooms
    -- A strand that was waiting for its destroy is told of it now.
    have hears {d d' : Deed} (hw : w = some .destroying) (hds : ds = [d, d'])
        (hd : d.dooms? = none ∧ d.accepts = false ∧ (d.spared = true ∨ d.destroys = true))
        (hd' : d'.dooms? = none ∧ d'.accepts = false) :
        Heard (ns ++ ds.map fun d => ⟨now, me, some i, d⟩) (w'.map (me.call, ·)) := by
      subst hw hds
      refine ⟨fun e he hdooms => .inr ?_, throughout_append.mpr ⟨ih.accepts, throughout_of_forall fun e he pre ha => ?_⟩⟩
      · rcases List.mem_append.mp he with he | he
        · rcases ih.dooms e he hdooms with heq | ht
          · have hcall : me.call = e.strand.call := (Prod.mk.inj (Option.some.inj heq)).1
            exact ⟨_, List.mem_append_right _ (List.mem_cons_self ..), hcall, hd.2.2⟩
          · exact ht.append _
        · simp only [List.map_cons, List.map_nil, List.mem_cons, List.not_mem_nil, or_false] at he
          rcases he with rfl | rfl
          · cases hd.1 ▸ hdooms
          · cases hd'.1 ▸ hdooms
      · simp only [List.map_cons, List.map_nil, List.mem_cons, List.not_mem_nil, or_false] at he
        rcases he with rfl | rfl
        · cases hd.2.1.symm.trans ha
        · cases hd'.2.symm.trans ha
    have ends {rest : List Deed} (hrest : ∀ d ∈ rest, d.EndsCheck) : ∀ d ∈ rest, d.dooms? = none :=
      fun d hd => (hrest d hd).dooms_eq
    cases ht with
    | refuse hl hd hrest =>
      exact quiet (by simp) (List.forall_mem_cons.mpr ⟨rfl, fun d hd => hrest.dooms_eq hd⟩)
    | stop hl hd id => exact quiet (by simp) (by simp [Deed.dooms?])
    | destroy hl hd =>
      refine ih.append (told (by simp)) (fun d hd _ => ?_) ?_
      · obtain ⟨d, -, rfl⟩ := List.mem_map.mp hd
        rfl
      · refine throughout_cons.mpr ⟨fun _ d hd => absurd hd List.not_mem_nil, throughout_cons.mpr ⟨fun _ d hd => ?_, throughout_nil⟩⟩
        rw [List.mem_singleton.mp hd]
        rfl
    | destroyed => exact hears rfl rfl ⟨rfl, rfl, .inr rfl⟩ ⟨rfl, rfl⟩
    | undestroyed id f => exact hears rfl rfl ⟨rfl, rfl, .inl rfl⟩ ⟨rfl, rfl⟩
    | close => exact quiet (by simp) (by simp [Deed.dooms?])
    | fresh hl hd hf hrest =>
      exact quiet (by simp) (List.forall_mem_cons.mpr ⟨rfl, List.forall_mem_cons.mpr ⟨rfl, ends hrest⟩⟩)
    | query hl hd hf => exact quiet (by simp) (by simp [Deed.dooms?])
    | sample x hrest =>
      exact quiet (by simp) (List.forall_mem_cons.mpr ⟨rfl, List.forall_mem_cons.mpr ⟨rfl, ends hrest⟩⟩)
    | fail f hrest =>
      exact quiet (by simp) (List.forall_mem_cons.mpr ⟨rfl, List.forall_mem_cons.mpr ⟨rfl, ends hrest⟩⟩)

/-! ### Owners -/

/-- A call got a machine with an id. -/
def Owns (log : List Note) (call : Nat) (id : String) : Prop :=
  ∃ e ∈ log, e.strand.call = call ∧ e.given? = some id

/-- A call made a record. -/
def Bore (log : List Note) (call i : Nat) : Prop :=
  ∃ e ∈ chronicle i log, e.strand.call = call ∧ e.deed.connects = true

/-- A destroy was asked for at a record, and not by one of the calls `T`, whose destroys fail. -/
def DoomedAt (T : Nat → Bool) (i : Nat) (log : List Note) : Prop :=
  ∃ d ∈ chronicle i log, d.deed.dooms?.isSome = true ∧ T d.strand.call = false

/-- The end of the machine that a call got was asked for, by the call itself or at the record which it made. -/
def Spent (T : Nat → Bool) (log : List Note) (call : Nat) : Prop :=
  (∃ d ∈ log, d.strand.call = call ∧ d.deed.dooms?.isSome = true ∧ T d.strand.call = false) ∨
    ∃ i, Bore log call i ∧ DoomedAt T i log

/-- Of the calls that got a machine with an id, one at most still has it, and then a machine is there under the id. -/
structure Sole (T : Nat → Bool) (log : List Note) : Prop where
  unique : ∀ {id : String} {call other : Nat}, Owns log call id → ¬Spent T log call → Owns log other id →
    ¬Spent T log other → call = other
  there : ∀ {id : String} {call : Nat}, Owns log call id → ¬Spent T log call → alive T id log = true

section
variable {T : Nat → Bool} {log more : List Note}

theorem Bore.append {call i : Nat} (h : Bore log call i) (more : List Note) : Bore (log ++ more) call i := by
  obtain ⟨e, he, hcall, hd⟩ := h
  exact ⟨e, by rw [chronicle_append]; exact List.mem_append_left _ he, hcall, hd⟩

theorem DoomedAt.append {i : Nat} (h : DoomedAt T i log) (more : List Note) : DoomedAt T i (log ++ more) := by
  obtain ⟨d, hd, hdooms, hT⟩ := h
  exact ⟨d, by rw [chronicle_append]; exact List.mem_append_left _ hd, hdooms, hT⟩

theorem Spent.append {call : Nat} (h : Spent T log call) (more : List Note) : Spent T (log ++ more) call := by
  rcases h with ⟨d, hd, hcall, hdooms, hT⟩ | ⟨i, hb, hd⟩
  · exact .inl ⟨d, List.mem_append_left _ hd, hcall, hdooms, hT⟩
  · exact .inr ⟨i, hb.append more, hd.append more⟩

theorem Owns.of_append {call : Nat} {id : String} (h : Owns (log ++ more) call id)
    (hmore : ∀ e ∈ more, e.given? = none) : Owns log call id := by
  obtain ⟨e, he, hcall, hid⟩ := h
  rcases List.mem_append.mp he with he | he
  · exact ⟨e, he, hcall, hid⟩
  · cases (hmore e he).symm.trans hid

/-- What gives no machine leaves the owners, and one of them is spent if a machine is ended. -/
theorem Sole.append (h : Sole T log) (hgiven : ∀ e ∈ more, e.given? = none)
    (hdoom : ∀ id, alive T id log = true → alive T id (log ++ more) = false →
      ∃ call, Owns log call id ∧ ¬Spent T log call ∧ Spent T (log ++ more) call) : Sole T (log ++ more) where
  unique hc hs hc' hs' :=
    h.unique (hc.of_append hgiven) (fun hsp => hs (hsp.append more)) (hc'.of_append hgiven)
      fun hsp => hs' (hsp.append more)
  there := by
    intro id call hc hs
    have hc := hc.of_append hgiven
    have hold : ¬Spent T log call := fun hsp => hs (hsp.append more)
    cases ha : alive T id (log ++ more) with
    | true => rfl
    | false =>
      obtain ⟨other, ho, hspent, hnow⟩ := hdoom id (h.there hc hold) ha
      rw [h.unique hc hold ho hspent] at hs
      exact absurd hnow hs

/-- A machine that gets an id of which none is there has one owner, the call that got it. -/
theorem Sole.give (h : Sole T log) {e : Note} {id : String} (hid : e.given? = some id)
    (hgone : alive T id log = false) : Sole T (log ++ [e]) where
  unique := by
    have only {key : String} {call : Nat} (hc : Owns (log ++ [e]) call key) (hs : ¬Spent T (log ++ [e]) call) :
        key = id ∧ call = e.strand.call ∨ key ≠ id ∧ Owns log call key ∧ ¬Spent T log call := by
      have hold : ¬Spent T log call := fun hsp => hs (hsp.append [e])
      obtain ⟨e', he', hcall, hkey⟩ := hc
      rcases List.mem_append.mp he' with he' | he'
      · refine .inr ⟨?_, ⟨e', he', hcall, hkey⟩, hold⟩
        rintro rfl
        cases hgone.symm.trans (h.there ⟨e', he', hcall, hkey⟩ hold)
      · obtain rfl := List.mem_singleton.mp he'
        exact .inl ⟨Option.some.inj (hkey.symm.trans hid), hcall.symm⟩
    intro key call other hc hs hc' hs'
    rcases only hc hs with ⟨hkey, rfl⟩ | ⟨hkey, hc, hs⟩
    · rcases only hc' hs' with ⟨-, rfl⟩ | ⟨hkey', -⟩
      · rfl
      · exact absurd hkey hkey'
    · rcases only hc' hs' with ⟨hkey', -⟩ | ⟨-, hc', hs'⟩
      · exact absurd hkey' hkey
      · exact h.unique hc hs hc' hs'
  there := by
    rintro key call ⟨e', he', hcall, hkey⟩ hs
    rw [alive_concat]
    rcases List.mem_append.mp he' with he' | he'
    · have halive := h.there ⟨e', he', hcall, hkey⟩ fun hsp => hs (hsp.append [e])
      have hnone : e.deed.dooms? = none := by
        unfold Note.given? at hid
        obtain ⟨machine, hm, -⟩ := Option.map_eq_some_iff.mp hid
        obtain ⟨vm, hd⟩ := Deed.machine?_eq_some.mp hm
        rw [hd]
        rfl
      simp [halive, hnone]
    · obtain rfl := List.mem_singleton.mp he'
      simp [hkey]

end

/-! ### Which steps give machines and which end them -/

/-- What a step has to do with machines: it gets one, asks for the end of one, or neither. -/
inductive Stage (me : Strand) (s : Store) (p : Running) (ds : List Deed) : Prop
  | given {spec : Sandbox.Spec} {suffix : UInt32} {vm : Machine.Spec} (machine : Machine.Handle)
      (hp : p = ⟨.create spec suffix, .provisioning vm⟩)
      (hds : ds = [.hears (.backend (.provision vm)) (.ok machine), .asks (.backend (.addresses machine))])
  | discards {spec : Sandbox.Spec} {suffix : UInt32} {point : Point (.create spec suffix)} {machine : Machine.Handle}
      {d : Deed} (hp : p = ⟨.create spec suffix, point⟩)
      (hpoint : point = .addressing machine ∨ ∃ address, point = .connecting machine address)
      (hd : d.machine? = none ∧ d.dooms? = none) (hds : ds = [d, .asks (.backend (.destroy machine))])
  | destroys {id : String} {i : Nat} {r : Record} (hp : p = ⟨.remove id, .queued i⟩) (hr : s.records[i]? = some r)
      (hl : r.lock.holder = some me) (hremoved : r.removed = false)
      (hds : ds = [.locks, .asks (.backend (.destroy r.machine))])
  | quiet (hds : ∀ d ∈ ds, d.machine? = none ∧ d.dooms? = none)

theorem Pace.stage {backend : String} {me : Strand} {s t : Store} {p q : Running} {ds : List Deed}
    (h : Pace backend me s p ds q t) : Stage me s p ds := by
  have ending {c : Call} (q : Point c) : ∀ d ∈ q.ending, d.machine? = none ∧ d.dooms? = none := by
    cases q <;> simp [Point.ending, Deed.machine?, Deed.dooms?]
  have checked {check next : Check} {ds : List Deed} {t : Store} (h : check.Pace me s ds next t) :
      ∀ d ∈ ds, d.machine? = none ∧ d.dooms? = none := by
    cases h <;> simp [Deed.machine?, Deed.dooms?]
  cases h with
  | provisioned machine => exact .given machine rfl rfl
  | unaddressed found hw => exact .discards rfl (.inl rfl) ⟨rfl, rfl⟩ rfl
  | unconnected f => exact .discards rfl (.inr ⟨_, rfl⟩) ⟨rfl, rfl⟩ rfl
  | destroy hr hl hd => exact .destroys rfl hr hl hd rfl
  | listed => exact .quiet (ending _)
  | check h => exact .quiet (List.forall_mem_append.mpr ⟨checked h, ending _⟩)
  | gather hc h => exact .quiet (List.forall_mem_append.mpr ⟨checked h, ending _⟩)
  | _ => exact .quiet (by simp [Deed.machine?, Deed.dooms?])

/-! ### One owner at a time -/

theorem entry_mem {log : List Note} {n : Nat} {es : List Entry} (hes : (account n log).map Note.entry = es) {e : Note}
    (he : e ∈ log) (hn : e.strand.call = n) : e.entry ∈ es :=
  hes ▸ List.mem_map_of_mem (mem_account.mpr ⟨he, hn⟩)

section
variable {backend : String} {catalog : Option String} {now : Nat} {T : Nat → Bool} {log : List Note} {s : System}

theorem Maker.bore {call i : Nat} {b : Origin} (h : Maker log s call i b) : Bore log call i := by
  obtain ⟨e, he, hcall, hd⟩ := h.connected
  exact ⟨e, he, hcall, by rw [hd]; rfl⟩

theorem Maker.owns {call i : Nat} {b : Origin} (h : Maker log s call i b) : Owns log call b.id := by
  obtain ⟨e, he, hcall, hm⟩ := h.provisioned
  refine ⟨e, he, hcall, ?_⟩
  rw [Note.given?, hm, h.named]
  rfl

/-- The machine of a create that made a record is ended at the record only. -/
theorem Maker.doomed (h : Run (.new backend catalog now) log s) {call i : Nat} {b : Origin}
    (hm : Maker log s call i b) (hs : Spent T log call) : DoomedAt T i log := by
  obtain ⟨suffix, p, vm, rest, hp, hpos, hes⟩ := hm.course
  rcases hs with ⟨d, hd, hcall, hdooms, -⟩ | ⟨k, ⟨e, he, rfl, -⟩, hd⟩
  · have hmem := entry_mem hes hd hcall
    have hnone : ∀ e ∈ entries none (provided vm b.machine ++ located b.machine b.address rest) ++
        entries (some i) (.hears (.connect b.address) (.ok b.agent) :: p.ending), e.2.dooms? = none := by
      rcases hpos with rfl | rfl | rfl <;>
        simp [entries, provided, located, Point.ending, Deed.dooms?]
    rw [show d.deed.dooms? = none from hnone d.entry hmem] at hdooms
    cases hdooms
  · obtain ⟨b', hm'⟩ := h.maker_of_mem he hp
    rw [hm.record_eq hm']
    exact hd

/-- A create that has got its machine, and no agent yet, still has it. -/
theorem Run.getting (h : Run (.new backend catalog now) log s) {n : Nat} {spec : Sandbox.Spec} {suffix : UInt32}
    {machine : Machine.Handle} {point : Point (.create spec suffix)} (hp : s.calls[n]? = some ⟨_, point⟩)
    (hpoint : point = .addressing machine ∨ ∃ address, point = .connecting machine address) :
    Owns log n machine.id ∧ ¬Spent T log n ∧ ∀ i, ¬Bore log n i := by
  have known {vm : Machine.Spec} {ds : List Deed} (hes : (account n log).map Note.entry = entries none ds)
      (hgiven : .hears (.backend (.provision vm)) (.ok machine) ∈ ds) (hds : ∀ d ∈ ds, d.dooms? = none) :
      Owns log n machine.id ∧ ¬Spent T log n ∧ ∀ i, ¬Bore log n i := by
    have hbore (i : Nat) : ¬Bore log n i := by
      rintro ⟨e, he, hcall, -⟩
      obtain ⟨he, hi⟩ := mem_chronicle.mp he
      cases hi.symm.trans (mem_entries.mp (entry_mem hes he hcall)).1
    obtain ⟨e, he, -, hd⟩ := mem_of_map_entry hes hgiven
    obtain ⟨he, hcall⟩ := mem_account.mp he
    refine ⟨⟨e, he, hcall, by rw [Note.given?, hd]; rfl⟩, ?_, hbore⟩
    rintro (⟨d, hd, hcall, hdooms, -⟩ | ⟨i, hb, -⟩)
    · have hnone : d.deed.dooms? = none := hds _ (mem_entries.mp (entry_mem hes hd hcall)).2
      rw [hnone] at hdooms
      cases hdooms
    · exact hbore i hb
  cases h.orderly.course hp with
  | create hes hc =>
    rcases hpoint with rfl | ⟨address, rfl⟩
    · cases hc with
      | addressing vm => exact @known vm _ hes (by simp [provided]) (by simp [provided, Deed.dooms?])
    · cases hc with
      | connecting vm _ _ rest =>
        exact @known vm _ hes (by simp [provided]) (by simp [provided, located, Deed.dooms?])

/-- At a record that a remove goes on with, no machine has been ended before. -/
theorem Run.not_doomed (h : Run (.new backend catalog now) log s) (hT : ∀ n, fails log n = true → T n = true)
    {me : Strand} {id : String} {i : Nat} {r : Record} (hp : s.calls[me.call]? = some ⟨.remove id, .queued i⟩)
    (hr : s.store.records[i]? = some r) (hl : r.lock.holder = some me) (hd : r.removed = false) :
    ¬DoomedAt T i log := by
  rintro ⟨d, hmem, hdooms, hfalse⟩
  obtain ⟨w, hsits, hlife⟩ := h.life hr
  have hturn : Turn me s.store.now r none [.locks, .asks (.backend (.destroy r.machine))] r (some .destroying) :=
    .destroy hl hd
  have hnone : s.Sits i none := h.exclusive.sits_of_turn hp (.destroy hr hl hd) hr hturn rfl
  obtain rfl := hsits.unique hnone
  rcases hlife.heard.dooms d hmem hdooms with hw | ⟨e, he, hcall, hspared | hdestroys⟩
  · cases hw
  · have := hT _ (fails_of_mem (mem_chronicle.mp he).1 hspared)
    rw [hcall, hfalse] at this
    cases this
  · have hzero : (chronicle i log).countP (·.deed.destroys) = 0 :=
      hlife.guarded.destroys.trans (congrArg Bool.toNat hd)
    exact absurd hdestroys (List.countP_eq_zero.mp hzero e he)

/-- A step that asks for the end of a machine takes it from its owner. -/
theorem alive_doom {id : String} {machine : Machine.Handle} {n e : Note} (hn : n.given? = none ∧ n.deed.dooms? = none)
    (he : e.deed = .asks (.backend (.destroy machine))) (ha : alive T id log = true)
    (hf : alive T id (log ++ [n, e]) = false) : machine.id = id ∧ T e.strand.call = false := by
  have hg : e.given? = none := by rw [Note.given?, he]; rfl
  rw [List.append_cons, alive_concat, alive_append_of_quiet (List.forall_mem_singleton.mpr ⟨hn.1, .inl hn.2⟩), ha, hg,
    he] at hf
  simpa [Deed.dooms?] using hf

theorem Run.sole (h : Run (.new backend catalog now) log s) (hs : Spaced T log)
    (hT : ∀ n, fails log n = true → T n = true) : Sole T log := by
  refine Run.induct (P := fun log _ => Spaced T log → (∀ n, fails log n = true → T n = true) → Sole T log) ?_ ?_ h hs hT
  · intro _ _
    exact ⟨fun ⟨e, he, _⟩ => (nomatch he), fun ⟨e, he, _⟩ => nomatch he⟩
  · intro log notes t u h ih hg hs hT
    obtain ⟨hs, hnew⟩ := throughout_append.mp hs
    have hfails : ∀ n, fails log n = true → T n = true := fun n hn => hT n (fails_append_left hn)
    have ih := ih hs hfails
    cases hg with
    | @pace me p q ds st hp hq =>
      cases hq.stage with
      | given machine hp' hds =>
        subst hds
        have hgone := (throughout_cons.mp hnew).1 machine.id rfl
        rw [List.append_nil] at hgone
        rw [List.map_cons, List.append_cons]
        refine (ih.give rfl hgone).append (fun e he => ?_) fun id ha hf => ?_
        · rw [List.mem_singleton.mp he]
          rfl
        · rw [List.map_singleton, alive_append_of_quiet (List.forall_mem_singleton.mpr ⟨rfl, .inl rfl⟩), ha] at hf
          cases hf
      | discards hp' hpoint hd hds =>
        subst hp' hds
        have hgiven := hd.1
        refine ih.append (fun e he => ?_) fun id ha hf => ?_
        · obtain ⟨d, hmem, rfl⟩ := List.mem_map.mp he
          simp only [List.mem_cons, List.not_mem_nil, or_false] at hmem
          rcases hmem with rfl | rfl
          · rw [Note.given?, hgiven]
            rfl
          · rfl
        · obtain ⟨rfl, hfalse⟩ := alive_doom ⟨by rw [Note.given?, hgiven]; rfl, hd.2⟩ rfl ha hf
          obtain ⟨howns, hspent, -⟩ := h.getting hp hpoint
          refine ⟨me.call, howns, hspent, .inl ⟨_, List.mem_append_right _ (List.mem_map_of_mem ?_), rfl, rfl, hfalse⟩⟩
          exact List.mem_cons_of_mem _ (List.mem_singleton_self _)
      | @destroys id i r hp' hr hl hremoved hds =>
        subst hp' hds
        refine ih.append (fun e he => ?_) fun id ha hf => ?_
        · obtain ⟨d, hmem, rfl⟩ := List.mem_map.mp he
          simp only [List.mem_cons, List.not_mem_nil, or_false] at hmem
          rcases hmem with rfl | rfl <;> rfl
        · obtain ⟨rfl, hfalse⟩ := alive_doom ⟨rfl, rfl⟩ rfl ha hf
          obtain ⟨call, hm⟩ := h.maker (Store.origins_eq hr)
          have howns := hm.owns
          rw [hm.named] at howns
          refine ⟨call, howns, fun hs => h.not_doomed hfails hp hr hl hremoved (hm.doomed h hs),
            .inr ⟨i, hm.bore.append _, _, mem_chronicle.mpr ⟨List.mem_append_right _ (List.mem_map_of_mem ?_), rfl⟩,
              rfl, hfalse⟩⟩
          exact List.mem_cons_of_mem _ (List.mem_singleton_self _)
      | quiet hds =>
        have hnone : ∀ e ∈ ds.map (Note.mk t.store.now me ((p.point.record? me).or (q.point.record? me))),
            e.given? = none ∧ (e.deed.dooms? = none ∨ T e.strand.call = true) := by
          intro e he
          obtain ⟨d, hd, rfl⟩ := List.mem_map.mp he
          exact ⟨by rw [Note.given?, (hds d hd).1]; rfl, .inl (hds d hd).2⟩
        refine ih.append (fun e he => (hnone e he).1) fun id ha hf => ?_
        rw [alive_append_of_quiet hnone, ha] at hf
        cases hf
    | _ =>
      rw [List.append_nil]
      exact ih

end

end PodMachines.Pods
