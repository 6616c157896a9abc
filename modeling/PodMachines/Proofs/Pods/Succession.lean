import PodMachines.Proofs.Pods.Reuse
import PodMachines.Proofs.Pods.Directory

/-! Removing where ids are given again. A remove compares records, not ids, before it takes one out of the directory,
    and keeps the lock from its destroy until the record is marked. So a sandbox that got the id of an older one is not
    touched by the removes of that one, however far they are. -/

namespace PodMachines.Pods

/-! ### Removes that have asked for the destroy -/

/-- How far a remove is that asked for the end of a record's own machine and was not told that the destroy failed. -/
inductive Takes (log : List Note) (s : System) (i : Nat) (r : Record) (n : Nat) : Prop
  | destroying (hp : s.calls[n]? = some ⟨.remove r.id, .destroying i⟩)
      (hes : (account n log).map Note.entry = entries (some i) [.locks, .asks (.backend (.destroy r.machine))])
  | closing (hp : s.calls[n]? = some ⟨.remove r.id, .closing i⟩)
      (hes : (account n log).map Note.entry = entries (some i) (destroyed r.origin))
  | forgetting (hp : s.calls[n]? = some ⟨.remove r.id, .entering (.forget r.id i)⟩ ∨
        s.calls[n]? = some ⟨.remove r.id, .inside (.forget r.id i)⟩)
      (hes : (account n log).map Note.entry = entries (some i) (destroyed r.origin ++ [.hears (.close r.agent) ()]))
  | removed (hp : s.calls[n]? = some ⟨.remove r.id, .finished (.ok ())⟩)
      (hes : (account n log).map Note.entry =
        entries (some i) (destroyed r.origin ++ [.hears (.close r.agent) (), .ends (.remove r.id) (.ok ())]))

section
variable {backend : String} {catalog : Option String} {now : Nat} {T : Nat → Bool} {log more : List Note}
  {s t : System} {i j : Nat} {r : Record}

/-- A remove of a record that is past its lock was not refused, and its destroy is not known to fail. -/
theorem Removing.takes {n : Nat} {id : String} {p : Point (.remove id)} {es : List Entry}
    (h : Removing s.store.origins id p es) (hes : (account n log).map Note.entry = es)
    (hp : s.calls[n]? = some ⟨.remove id, p⟩) (hr : s.store.records[i]? = some r) {d : Note} (hd : d ∈ log)
    (hn : d.strand.call = n) (hi : d.record = some i) (hdooms : d.deed.dooms?.isSome = true)
    (hf : fails log n = false) : Takes log s i r n := by
  have hmem := entry_mem hes hd hn
  have same {k : Nat} {b : Origin} {ds : List Deed} (hb : s.store.origins k = some b)
      (hk : d.entry ∈ entries (some k) ds) : k = i ∧ b = r.origin := by
    obtain rfl : k = i := Option.some.inj ((mem_entries.mp hk).1.symm.trans hi)
    exact ⟨rfl, Option.some.inj (hb.symm.trans (Store.origins_eq hr))⟩
  have none {α : Prop} {k : Option Nat} {ds : List Deed} (hk : d.entry ∈ entries k ds)
      (hds : ∀ d ∈ ds, d.dooms? = none) : α := by
    have hnone : d.deed.dooms? = Option.none := hds _ (mem_entries.mp hk).2
    rw [hnone] at hdooms
    cases hdooms
  cases h with
  | missing => exact none hmem (by simp [Deed.dooms?])
  | refused ho => exact none hmem (by simp [Deed.dooms?])
  | destroying hb hid =>
    obtain ⟨rfl, rfl⟩ := same hb hmem
    subst hid
    exact .destroying hp hes
  | @undestroyed k b hb hid f =>
    obtain ⟨e, he, -, hfail⟩ := mem_of_map_entry hes (d := .hears (.backend (.destroy b.machine)) (.error f)) (by simp)
    obtain ⟨he, hcall⟩ := mem_account.mp he
    have := fails_of_mem he (by rw [hfail]; rfl)
    rw [hcall, hf] at this
    cases this
  | closing hb hid =>
    obtain ⟨rfl, rfl⟩ := same hb hmem
    subst hid
    exact .closing hp hes
  | closed hb hid =>
    obtain ⟨rfl, rfl⟩ := same hb hmem
    subst hid
    exact .forgetting (.inl hp) hes
  | forgetting hb hid =>
    obtain ⟨rfl, rfl⟩ := same hb hmem
    subst hid
    exact .forgetting (.inr hp) hes
  | removed hb hid =>
    obtain ⟨rfl, rfl⟩ := same hb hmem
    subst hid
    exact .removed hp hes
  | _ => cases hmem

/-- A destroy that is asked for at a record, and not found to fail, is that of a remove. -/
theorem Run.takes (h : Run (.new backend catalog now) log s) (hr : s.store.records[i]? = some r) {d : Note}
    (hd : d ∈ chronicle i log) (hdooms : d.deed.dooms?.isSome = true) (hf : fails log d.strand.call = false) :
    Takes log s i r d.strand.call := by
  obtain ⟨hd', hi⟩ := mem_chronicle.mp hd
  obtain ⟨⟨c, p⟩, hp, hc, hmem⟩ := h.course_of_mem hd'
  obtain ⟨machine, hm⟩ := Option.isSome_iff_exists.mp hdooms
  rcases Call.of_about (h.may hp d hmem) (Deed.about?_of_dooms? hm) with ⟨spec, suffix, rfl⟩ | ⟨id, rfl⟩
  · -- A create asks for no destroy at the record that it made.
    obtain ⟨b, hmaker⟩ := h.maker_of_mem hd hp
    obtain ⟨suffix', p', vm, rest, hp', hpos, hes⟩ := hmaker.course
    cases hp.symm.trans hp'
    rcases List.mem_append.mp (entry_mem hes hd' rfl) with hmem | hmem
    · cases hi.symm.trans (mem_entries.mp hmem).1
    · have hnone : ∀ d ∈ Deed.hears (.connect b.address) (.ok b.agent) :: p.ending, d.dooms? = none := by
        rcases hpos with rfl | rfl | rfl <;> simp [Point.ending, Deed.dooms?]
      rw [show d.deed.dooms? = none from hnone _ (mem_entries.mp hmem).2] at hm
      cases hm
  · cases hc with
    | remove hes hc => exact hc.takes hes hp hr hd' rfl hi hdooms hf

theorem Takes.enrolled {n : Nat} (h : Takes log s i r n) (hrun : Run (.new backend catalog now) log s) :
    Noted Deed.enrolls i log := by
  cases h with
  | destroying hp hes => exact hrun.reached.arrived hp rfl
  | closing hp hes => exact hrun.reached.arrived hp rfl
  | forgetting hp hes =>
    rcases hp with hp | hp
    · exact hrun.reached.arrived hp rfl
    · exact hrun.reached.arrived hp rfl
  | removed hp hes =>
    obtain ⟨e, he, hi, hd⟩ := mem_of_map_entry hes (d := .ends (.remove r.id) (.ok ())) (by simp)
    exact hrun.reached.removed ⟨e, mem_chronicle.mpr ⟨(mem_account.mp he).1, hi⟩, by rw [hd]; rfl⟩

theorem Run.enrolled_of_doomed (h : Run (.new backend catalog now) log s)
    (hT : ∀ n, fails log n = true → T n = true) (hr : s.store.records[i]? = some r) (hd : DoomedAt T i log) :
    Noted Deed.enrolls i log := by
  obtain ⟨d, hd, hdooms, hfalse⟩ := hd
  have hf : fails log d.strand.call = false := by
    cases hf : fails log d.strand.call with
    | false => rfl
    | true => cases hfalse.symm.trans (hT _ hf)
  exact (h.takes hr hd hdooms hf).enrolled h

/-! ### Records of one id, one after the other -/

/-- When a record is made, the ends of the machines of all earlier records with its id have been asked for. -/
def Succeeds (T : Nat → Bool) (log : List Note) (s : System) : Prop :=
  Throughout (fun pre e => e.deed.connects = true → ∀ i, e.record = some i → ∀ j < i, ∀ b b',
    s.store.origins i = some b → s.store.origins j = some b' → b'.id = b.id → DoomedAt T j pre) log

theorem Pace.connects_eq {me : Strand} {p q : Running} {ds : List Deed} {st st' : Store}
    (h : Pace backend me st p ds q st') : (∀ d ∈ ds, d.connects = false) ∨
      ∃ (spec : Sandbox.Spec) (suffix : UInt32) (machine : Machine.Handle) (address : Address) (agent : Connection),
        p = ⟨.create spec suffix, .connecting machine address⟩ ∧
          q = ⟨.create spec suffix, .entering (.enroll machine.id st.records.length)⟩ ∧
            ds = [.hears (.connect address) (.ok agent)] ∧
              st'.records = st.records ++ [Record.new spec machine address agent st.now] := by
  have ending {c : Call} (q : Point c) : ∀ d ∈ q.ending, d.connects = false := by
    cases q <;> simp [Point.ending, Deed.connects]
  have checked {check next : Check} {ds : List Deed} {st' : Store} (h : check.Pace me st ds next st') :
      ∀ d ∈ ds, d.connects = false := by
    cases h <;> simp [Deed.connects]
  cases h with
  | connected agent => exact .inr ⟨_, _, _, _, agent, rfl, rfl, rfl, rfl⟩
  | listed => exact .inl (ending _)
  | check h => exact .inl (List.forall_mem_append.mpr ⟨checked h, ending _⟩)
  | gather hc h => exact .inl (List.forall_mem_append.mpr ⟨checked h, ending _⟩)
  | _ => exact .inl (by simp [Deed.connects])

theorem Run.succeeds (h : Run (.new backend catalog now) log s) (hs : Spaced T log)
    (hT : ∀ n, fails log n = true → T n = true) : Succeeds T log s := by
  refine Run.induct (P := fun log s => Spaced T log → (∀ n, fails log n = true → T n = true) → Succeeds T log s)
    (fun _ _ => throughout_nil) ?_ h hs hT
  intro log notes t u h ih hg hs hT
  have hold := (throughout_append.mp hs).1
  have hfails : ∀ n, fails log n = true → T n = true := fun n hn => hT n (fails_append_left hn)
  have ih := ih hold hfails
  cases hg with
  | @pace me p q ds st hp hq =>
    refine throughout_append.mpr ⟨?_, ?_⟩
    · -- What the records were made with stays.
      intro pre e post hsplit hc i hi j hj b b' hb hb' hid
      have known {k : Nat} {b : Origin} (hk : k ≤ i) (hb : st.origins k = some b) : t.store.origins k = some b := by
        obtain ⟨p, hp, hcourse, hmem⟩ := h.course_of_mem (hsplit ▸ List.mem_append_right _ (List.mem_cons_self ..))
        obtain ⟨b₀, hb₀⟩ := hcourse.known hmem hi
        obtain ⟨r₀, hr₀, -⟩ := Option.map_eq_some_iff.mp hb₀
        have hlt : k < t.store.records.length := Nat.lt_of_le_of_lt hk (List.getElem?_eq_some_iff.mp hr₀).1
        have ho := Store.origins_eq (List.getElem?_eq_getElem hlt)
        exact ho.trans ((hq.grows _ _ ho).symm.trans hb)
      exact ih pre e post hsplit hc i hi j hj b b' (known (Nat.le_refl _) hb) (known (Nat.le_of_lt hj) hb') hid
    · have hsole := h.sole hold hfails
      intro pre e post hsplit hc i hi j hj b b' hb hb' hid
      have hmem : e ∈ ds.map fun d => (⟨t.store.now, me, (p.point.record? me).or (q.point.record? me), d⟩ : Note) :=
        hsplit ▸ List.mem_append_right _ (List.mem_cons_self ..)
      obtain ⟨d, hd, rfl⟩ := List.mem_map.mp hmem
      rcases hq.connects_eq with hnone | ⟨spec, suffix, machine, address, agent, rfl, rfl, rfl, hst⟩
      · cases (hnone d hd).symm.trans hc
      · obtain rfl : t.store.records.length = i := Option.some.inj hi
        have hnew : st.origins t.store.records.length =
            some (Record.new spec machine address agent t.store.now).origin := by
          rw [Store.origins, hst, List.getElem?_concat_length]
          rfl
        obtain rfl := Option.some.inj (hnew.symm.trans hb)
        have hold : t.store.origins j = some b' := by
          have hst' : st.origins j = some b' := hb'
          rw [Store.origins, hst, List.getElem?_append_left hj] at hst'
          exact hst'
        obtain ⟨call, hm⟩ := h.maker hold
        obtain ⟨howns, hspent, hbore⟩ := h.getting (T := T) hp (.inr ⟨address, rfl⟩)
        have hdoomed : DoomedAt T j log := by
          refine hm.doomed h (Classical.byContradiction fun hs => ?_)
          have hother := hm.owns
          rw [hid] at hother
          rw [hsole.unique howns hspent hother hs] at hbore
          exact hbore j hm.bore
        exact hdoomed.append pre
  | _ =>
    rw [List.append_nil]
    exact ih

/-! ### Listed until taken out -/

/-- A record that was listed is listed, or was removed, or gave way to a newer one while a remove of it goes on. -/
def Stays (T : Nat → Bool) (log : List Note) (s : System) : Prop :=
  ∀ i b, s.store.origins i = some b → Noted Deed.enrolls i log → s.store.directory.find? b.id = some i ∨
    Noted Deed.removes i log ∨
      DoomedAt T i log ∧ ∃ j, i < j ∧ Noted Deed.enrolls j log ∧ s.store.origins.Names j b.id

/-- A record that gives way to another one of its id was made before, and its machine has been ended. -/
theorem Run.gives_way (h : Run (.new backend catalog now) log s) (hs : Spaced T log)
    (hT : ∀ n, fails log n = true → T n = true) {b : Origin} (hb : s.store.origins i = some b) {n : Nat}
    {spec : Sandbox.Spec} {suffix : UInt32} (hp : s.calls[n]? = some ⟨.create spec suffix, .inside (.enroll b.id j)⟩)
    (hij : j ≠ i) : DoomedAt T i log ∧ i < j ∧ s.store.origins.Names j b.id := by
  obtain ⟨b', hm', hid⟩ := h.maker_of_enroll hp
  obtain ⟨call, hm⟩ := h.maker hb
  have hfresh : ¬DoomedAt T j log := fun hd => by
    obtain ⟨r', hr', -⟩ := Option.map_eq_some_iff.mp hm'.origin
    exact h.not_enrolled hp (h.enrolled_of_doomed hT hr' hd)
  have hdoomed : DoomedAt T i log := by
    refine hm.doomed h (Classical.byContradiction fun hspent => ?_)
    have howns := hm'.owns
    rw [hid] at howns
    obtain rfl := (h.sole hs hT).unique howns (fun hs => hfresh (hm'.doomed h hs)) hm.owns hspent
    exact hij (hm'.record_eq hm)
  refine ⟨hdoomed, ?_, b', hm'.origin, hid⟩
  rcases Nat.lt_trichotomy i j with hlt | heq | hlt
  · exact hlt
  · exact absurd heq.symm hij
  · -- Made before, the record would have had to be ended when this one was made, and is not even listed.
    obtain ⟨e, he, -, hc⟩ := hm.bore
    obtain ⟨he, hi⟩ := mem_chronicle.mp he
    obtain ⟨pre, post, hsplit⟩ := List.append_of_mem he
    have hd := h.succeeds hs hT pre e post hsplit hc i hi j hlt b b' hb hm'.origin hid
    exact absurd (hsplit ▸ hd.append (e :: post)) hfresh

theorem Run.stays (h : Run (.new backend catalog now) log s) (hs : Spaced T log)
    (hT : ∀ n, fails log n = true → T n = true) : Stays T log s := by
  refine Run.induct (P := fun log s => Spaced T log → (∀ n, fails log n = true → T n = true) → Stays T log s) ?_ ?_ h
    hs hT
  · intro _ _ i b hb
    cases hb
  intro log notes t u h ih hg hs hT
  have hold := (throughout_append.mp hs).1
  have hfails : ∀ n, fails log n = true → T n = true := fun n hn => hT n (fails_append_left hn)
  have ih := ih hold hfails
  cases hg with
  | @pace me p q ds st hp hq =>
    intro i b hb henrolled
    -- A record of which anything was noted had been made before the step.
    have old (hn : Noted Deed.enrolls i log) : t.store.origins i = some b := by
      obtain ⟨e, he, -⟩ := hn
      by_cases hi : i < t.store.records.length
      · have ho := Store.origins_eq (List.getElem?_eq_getElem hi)
        exact ho.trans ((hq.grows _ _ ho).symm.trans hb)
      · rw [h.chronicle_eq_nil (Nat.le_of_not_lt hi)] at he
        cases he
    have carry (hn : Noted Deed.enrolls i log) (hstep : t.store.directory.find? b.id = some i →
        st.directory.find? b.id = some i ∨ DoomedAt T i log ∧ ∃ j, i < j ∧
          Noted Deed.enrolls j (log ++ ds.map fun d => ⟨t.store.now, me, (p.point.record? me).or (q.point.record? me), d⟩) ∧
            t.store.origins.Names j b.id) :
        st.directory.find? b.id = some i ∨
          Noted Deed.removes i (log ++ ds.map fun d => ⟨t.store.now, me, (p.point.record? me).or (q.point.record? me), d⟩) ∨
          DoomedAt T i (log ++ ds.map fun d => ⟨t.store.now, me, (p.point.record? me).or (q.point.record? me), d⟩) ∧
            ∃ j, i < j ∧ Noted Deed.enrolls j
              (log ++ ds.map fun d => ⟨t.store.now, me, (p.point.record? me).or (q.point.record? me), d⟩) ∧
                st.origins.Names j b.id := by
      rcases ih i b (old hn) hn with hi | hr | ⟨hd, j, hij, hj, hname⟩
      · rcases hstep hi with hi | ⟨hd, j, hij, hj, hname⟩
        · exact .inl hi
        · exact .inr (.inr ⟨hd.append _, j, hij, hj, hname.mono hq.grows⟩)
      · exact .inr (.inl (hr.append _))
      · exact .inr (.inr ⟨hd.append _, j, hij, hj.append _, hname.mono hq.grows⟩)
    have hd := hq.redirect
    show st.directory.find? b.id = some i ∨ _
    generalize st.directory = d at hd carry ⊢
    cases hd with
    | keep hds => exact carry ((noted_append_of_none fun _ e he => (hds e he).1).mp henrolled) .inl
    | @enroll spec suffix id j hp' =>
      subst hp'
      rw [Table.find?_insert]
      rw [Table.find?_insert] at carry
      by_cases hij : j = i
      · subst hij
        obtain ⟨b', hm, rfl⟩ := h.maker_of_enroll hp
        obtain rfl := Option.some.inj ((hq.grows _ _ hm.origin).symm.trans hb)
        exact .inl (if_pos rfl)
      · have hn : Noted Deed.enrolls i log := by
          rcases noted_append.mp henrolled with hn | ⟨hi, -⟩
          · exact hn
          · exact absurd (Option.some.inj hi) hij
        refine carry hn fun hi => ?_
        by_cases hid : id = b.id
        · subst hid
          obtain ⟨hdoomed, hlt, hname⟩ := h.gives_way hold hfails (old hn) hp hij
          exact .inr ⟨hdoomed, j, hlt, noted_append.mpr (.inr ⟨rfl, _, List.mem_singleton_self _, rfl⟩), hname⟩
        · exact .inl ((if_neg hid).trans hi)
    | @forget name id j hp' =>
      subst hp'
      have hn := (noted_append_of_none fun _ => List.forall_mem_singleton.mpr rfl).mp henrolled
      by_cases hij : j = i
      · subst hij
        exact .inr (.inl (noted_append.mpr (.inr ⟨rfl, _, List.mem_singleton_self _, rfl⟩)))
      · refine carry hn fun hi => .inl ?_
        split
        · rename_i hj
          have hne : id ≠ b.id := by
            rintro rfl
            exact hij (Option.some.inj (hj.symm.trans hi))
          rw [Table.find?_erase, if_neg hne, hi]
        · exact hi
  | _ =>
    rw [List.append_nil]
    exact ih

/-! ### What a step at another record leaves alone -/

theorem Pace.records_eq_of_ne {me : Strand} {p q : Running} {ds : List Deed} {st st' : Store}
    (h : Pace backend me st p ds q st') (hj : p.point.record? me = some j) (hij : j ≠ i) :
    st'.records[i]? = st.records[i]? := by
  have check {check next : Check} {ds : List Deed} {st' : Store} (h : check.Pace me st ds next st')
      (hj : check.record? = some j) : st'.records[i]? = st.records[i]? := by
    cases h with
    | query hr hl hd hf => rfl
    | arrive k =>
      cases hj
      simp [Store.requestLock, Store.modify, hij]
    | _ =>
      cases hj
      exact List.getElem?_set_ne hij
  cases h with
  | connected agent => cases hj
  | forget id k => split <;> rfl
  | arrive k =>
    cases hj
    simp [Store.requestLock, Store.modify, hij]
  | stopRefused hr hl hd | stopped hr hl hd | removeRefused hr hl hd | undestroyed hr f | closed hr =>
    cases hj
    exact List.getElem?_set_ne hij
  | check h => exact check h hj
  | gather hc h =>
    refine check h ?_
    simpa [Point.record?, Point.check?, hc] using hj
  | _ => rfl

/-- A call other than a create that stands at another record leaves a record and its place in the directory. -/
theorem Run.apart (h : Run (.new backend catalog now) log s) (hr : s.store.records[i]? = some r) {m : Move}
    (hm : s.move? m = some t) {me : Strand} (hme : m.strand? = some me) {p : Running}
    (hp : s.calls[me.call]? = some p) (hj : p.point.record? me = some j) (hij : j ≠ i)
    (hc : ∀ spec suffix, p.call ≠ .create spec suffix) :
    t.store.records[i]? = some r ∧
      (s.store.directory.find? r.id = some i → t.store.directory.find? r.id = some i) := by
  have step {q : Running} {ds : List Deed} {st : Store} (hq : Pace s.backend me s.store p ds q st) :
      st.records[i]? = some r ∧ (s.store.directory.find? r.id = some i → st.directory.find? r.id = some i) := by
    refine ⟨(hq.records_eq_of_ne hj hij).trans hr, fun hi => ?_⟩
    have ho := h.orderly
    have hmakes : ∀ d ∈ ds, ∀ spec suffix, d ≠ .ends (.create spec suffix) (.ok r.id) := by
      rintro d hd spec suffix rfl
      exact hc spec suffix (of_decide_eq_true (hq.may.2 _ hd)).symm
    rcases hq.find?_kept ho.placed (ho.course hp) hi hmakes with ⟨hkept, -⟩ | ⟨-, hrec, -⟩
    · exact hkept
    · rw [hj, Option.some_or] at hrec
      exact absurd (Option.some.inj hrec) hij
  cases m with
  | advance you =>
    cases hme
    obtain ⟨p', q, ds, st, hp', rfl, -, hq⟩ := System.pace_of_advance hm
    cases hp.symm.trans hp'
    exact step hq
  | answer you request a =>
    cases hme
    obtain ⟨p', q, ds, st, hp', rfl, -, hq⟩ := System.pace_of_answer hm
    cases hp.symm.trans hp'
    exact step hq
  | _ => cases hme

/-- How a sandbox outlasts those that had its id before. -/
structure Outlasts (log : List Note) (s : System) (i : Nat) (r : Record) : Prop where
  /-- It is listed until a remove has its own machine ended, and that remove has its own agent's connection closed. -/
  listed : s.store.directory.find? r.id = some i ∨ ∃ n, Takes log s i r n
  /-- While that remove goes on, only a newer sandbox can take its place. -/
  replaced : s.store.directory.find? r.id ≠ some i → Noted Deed.removes i log ∨
    ∃ j, i < j ∧ Noted Deed.enrolls j log ∧ s.store.origins.Names j r.id
  /-- Calls that stand at another record neither change it nor take it out. -/
  apart : ∀ {m : Move} {t : System} {me : Strand} {p : Running} {j : Nat}, s.move? m = some t →
    m.strand? = some me → s.calls[me.call]? = some p → p.point.record? me = some j → j ≠ i →
      (∀ spec suffix, p.call ≠ .create spec suffix) → t.store.records[i]? = some r ∧
        (s.store.directory.find? r.id = some i → t.store.directory.find? r.id = some i)
  /-- Since it was made, nobody asks for the end or the state of the machine at an older record of its id, stops it or
      reports of it, and whoever gets the lock of that record finds no sandbox. -/
  older : ∀ {pre post : List Note} {e : Note}, log = pre ++ e :: post → e.record = some i → ∀ {j : Nat}, j < i →
    s.store.origins.Names j r.id → ∀ n ∈ post, n.record = some j →
      n.deed.accepts = false ∧ (n.deed = .locks → s.Misses n.strand.call r.id)

/-- After a destroy that is not found to fail, a record is not gone on with. -/
theorem Run.accepts_eq_false (h : Run (.new backend catalog now) log s) (hr : s.store.records[i]? = some r)
    {pre post : List Note} {d : Note} (hs : chronicle i log = pre ++ d :: post)
    (hdooms : d.deed.dooms?.isSome = true) (hf : fails log d.strand.call = false) {n : Note} (hn : n ∈ post) :
    n.deed.accepts = false := by
  obtain ⟨w, -, hlife⟩ := h.life hr
  obtain ⟨mid, rest, rfl⟩ := List.append_of_mem hn
  cases ha : n.deed.accepts with
  | false => rfl
  | true =>
    have hsplit : chronicle i log = (pre ++ d :: mid) ++ n :: rest := by rw [hs, List.append_assoc]; rfl
    have hmem : d ∈ pre ++ d :: mid := List.mem_append_right _ (List.mem_cons_self ..)
    obtain ⟨e, he, hcall, hspared | hdestroys⟩ := hlife.heard.accepts _ n rest hsplit ha d hmem hdooms
    · have hin : e ∈ chronicle i log := hsplit ▸ List.mem_append_left _ he
      have := fails_of_mem (mem_chronicle.mp hin).1 hspared
      rw [hcall, hf] at this
      cases this
    · have hzero := (hlife.guarded.ordered _ n rest hsplit).accepts ha
      exact absurd hdestroys (List.countP_eq_zero.mp hzero e he)

/-- Whoever gets the lock after a destroy that is not found to fail finds no sandbox. -/
theorem Run.misses_of_dooms (h : Run (.new backend catalog now) log s) (hr : s.store.records[i]? = some r)
    {pre post : List Note} {d : Note} (hs : chronicle i log = pre ++ d :: post)
    (hdooms : d.deed.dooms?.isSome = true) (hf : fails log d.strand.call = false) {n : Note} (hn : n ∈ post)
    (hlocks : n.deed = .locks) : s.Misses n.strand.call r.id := by
  obtain ⟨w, -, hlife⟩ := h.life hr
  obtain ⟨mid, rest, rfl⟩ := List.append_of_mem hn
  obtain ⟨next, tail, rfl, hstrand, hnext⟩ :=
    hlife.followed (pre ++ d :: mid) n rest (by rw [hs, List.append_assoc]; rfl) hlocks
  have hmem : next ∈ mid ++ n :: next :: tail := by simp
  rw [h.accepts_eq_false hr hs hdooms hf hmem] at hnext
  rw [← hstrand]
  exact h.misses hr (hs ▸ List.mem_append_right _ (List.mem_cons_of_mem _ hmem)) (hnext.resolve_left Bool.noConfusion)

/-- What is noted at a record is noted when it is made, or after. -/
theorem Run.made_before (h : Run (.new backend catalog now) log s) (hr : s.store.records[i]? = some r)
    {pre post : List Note} {e : Note} (hs : log = pre ++ e :: post) (hi : e.record = some i) :
    ∃ before b after, log = before ++ b :: after ∧ b.deed.connects = true ∧ b.record = some i ∧
      ∀ n ∈ post, n ∈ after := by
  obtain ⟨w, -, hlife⟩ := h.life hr
  obtain ⟨time, me, rest, hborn, -⟩ := hlife.born_once
  have hsplit : chronicle i log = chronicle i pre ++ e :: chronicle i post := by
    rw [hs, chronicle_append]
    exact congrArg _ (List.filter_cons_of_pos (decide_eq_true hi))
  rw [hborn] at hsplit
  cases hpre : chronicle i pre with
  | nil =>
    rw [hpre] at hsplit
    obtain ⟨rfl, -⟩ := List.cons.inj hsplit
    exact ⟨pre, _, post, hs, rfl, hi, fun n hn => hn⟩
  | cons b tail =>
    rw [hpre] at hsplit
    obtain ⟨rfl, -⟩ := List.cons.inj hsplit
    have hmem : ⟨time, me, some i, .hears (.connect r.address) (.ok r.agent)⟩ ∈ pre :=
      (mem_chronicle.mp (hpre ▸ List.mem_cons_self ..)).1
    obtain ⟨before, between, rfl⟩ := List.append_of_mem hmem
    refine ⟨before, ⟨time, me, some i, .hears (.connect r.address) (.ok r.agent)⟩, between ++ e :: post, ?_, rfl, rfl,
      fun n hn => ?_⟩
    · rw [hs, List.append_assoc]
      rfl
    · exact List.mem_append_right _ (List.mem_cons_of_mem _ hn)

theorem Run.takes_of_removes (h : Run (.new backend catalog now) log s) (hr : s.store.records[i]? = some r)
    (hn : Noted Deed.removes i log) : ∃ n, Takes log s i r n := by
  obtain ⟨e, he, hd⟩ := hn
  obtain ⟨he, hi⟩ := mem_chronicle.mp he
  obtain ⟨id, hd⟩ := Deed.removes_iff.mp hd
  have hp := System.result?_eq_some.mp (h.result_iff.mpr ⟨e, he, rfl, hd⟩)
  cases h.orderly.course hp with
  | remove hes hc =>
    cases hc with
    | @removed k b hb hid =>
      obtain rfl : k = i := Option.some.inj ((mem_entries.mp (entry_mem hes he rfl)).1.symm.trans hi)
      obtain rfl : b = r.origin := Option.some.inj (hb.symm.trans (Store.origins_eq hr))
      subst hid
      exact ⟨_, .removed hp hes⟩

theorem newer_outlasts (h : Run (.new backend catalog now) log s) (hf : Recycled log)
    (hr : s.store.records[i]? = some r) (henrolled : Noted Deed.enrolls i log) : Outlasts log s i r := by
  have hstays := h.stays hf (fun _ hn => hn) i r.origin (Store.origins_eq hr) henrolled
  refine ⟨?_, ?_, fun hm hme hp hj hij hc => h.apart hr hm hme hp hj hij hc, ?_⟩
  · rcases hstays with hi | hremoves | ⟨⟨d, hd, hdooms, hfalse⟩, -⟩
    · exact .inl hi
    · exact .inr (h.takes_of_removes hr hremoves)
    · exact .inr ⟨_, h.takes hr hd hdooms hfalse⟩
  · intro hne
    rcases hstays with hi | hremoves | ⟨-, hnewer⟩
    · exact absurd hi hne
    · exact .inl hremoves
    · exact .inr hnewer
  · intro pre post e hsplit hi j hj hname n hn hrec
    obtain ⟨before, born, after, hlog, hconnects, hborn, hafter⟩ := h.made_before hr hsplit hi
    obtain ⟨b, hb, hid⟩ := hname
    obtain ⟨r', hr', rfl⟩ := Option.map_eq_some_iff.mp hb
    obtain ⟨d, hd, hdooms, hfalse⟩ := h.succeeds hf (fun _ hn => hn) before born after hlog hconnects i hborn j hj
      r.origin r'.origin (Store.origins_eq hr) hb hid
    obtain ⟨first, second, hfirst⟩ := List.append_of_mem hd
    have hchron : chronicle j log = first ++ d :: (second ++ chronicle j (born :: after)) := by
      rw [hlog, chronicle_append, hfirst, List.append_assoc]
      rfl
    have hmem : n ∈ second ++ chronicle j (born :: after) :=
      List.mem_append_right _ (mem_chronicle.mpr ⟨List.mem_cons_of_mem _ (hafter n hn), hrec⟩)
    refine ⟨h.accepts_eq_false hr' hchron hdooms hfalse hmem, fun hlocks => ?_⟩
    have hmiss := h.misses_of_dooms hr' hchron hdooms hfalse hmem hlocks
    rwa [show r'.id = r.id from hid] at hmiss

end

namespace Tour

/-- A call that waits for a record's lock. -/
def queue (n : Nat) (c : Call) : List Move :=
  [.start c, .advance ⟨n, 0⟩, .advance ⟨n, 0⟩, .advance ⟨n, 0⟩]

/-- While a remove waits for its destroy, with a stop and another remove behind it, a new machine gets the id. Then the
    remove goes on to its end. -/
def reuse : List Move :=
  create 0 gone 0 ++ approach 1 (.remove "gone") ++ queue 2 (.stop "gone") ++ queue 3 (.remove "gone") ++
    create 4 gone 1 ++ [.answer ⟨1, 0⟩ (.backend (.destroy gone)) (.ok ()), .answer ⟨1, 0⟩ (.close 0) (),
      .advance ⟨2, 0⟩, .advance ⟨3, 0⟩, .advance ⟨1, 0⟩, .advance ⟨1, 0⟩]

def reused : List Note × System :=
  (System.new "fake" none 0).played reuse

end Tour

/-- In the tour the new sandbox stays, and the calls that waited at the old one find none. -/
theorem newer_outlasts_tour :
    (∃ r, Tour.reused.2.store.records[1]? = some r ∧ Outlasts Tour.reused.1 Tour.reused.2 1 r) ∧
      Tour.reused.2.store.directory.find? "gone" = some 1 ∧
      Tour.reused.2.result? 1 (.remove "gone") = some (.ok ()) ∧
      Tour.reused.2.result? 2 (.stop "gone") = some (Point.missing "gone") ∧
      Tour.reused.2.result? 3 (.remove "gone") = some (Point.missing "gone") :=
  ⟨⟨_, rfl, newer_outlasts (System.run_played Tour.reuse) (by decide +kernel) rfl (List.any_eq_true.mp rfl)⟩,
    rfl, rfl, rfl, rfl⟩

end PodMachines.Pods
