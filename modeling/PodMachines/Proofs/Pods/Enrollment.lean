import PodMachines.Proofs.Pods.Maker

/-! When a record is listed. A create lists its record under the id of its machine when it succeeds, and a remove of
    the record takes it out when it succeeds. Until its create succeeds nobody else comes to a record. Main statement:
    when no machine is provisioned with the id of an earlier one, a record whose create succeeded is listed exactly
    until it is removed. -/

namespace PodMachines.Pods

/-- Something of a kind is noted at a record. -/
def Noted (kind : Deed → Bool) (i : Nat) (log : List Note) : Prop :=
  ∃ e ∈ chronicle i log, kind e.deed = true

theorem noted_append {kind : Deed → Bool} {i : Nat} {log : List Note} {now : Nat} {me : Strand} {j : Option Nat}
    {ds : List Deed} :
    Noted kind i (log ++ ds.map fun d => ⟨now, me, j, d⟩) ↔
      Noted kind i log ∨ j = some i ∧ ∃ d ∈ ds, kind d = true := by
  unfold Noted
  constructor
  · rintro ⟨e, he, hk⟩
    obtain ⟨he, hi⟩ := mem_chronicle.mp he
    rcases List.mem_append.mp he with he | he
    · exact .inl ⟨e, mem_chronicle.mpr ⟨he, hi⟩, hk⟩
    · obtain ⟨d, hd, rfl⟩ := List.mem_map.mp he
      exact .inr ⟨hi, d, hd, hk⟩
  · rintro (⟨e, he, hk⟩ | ⟨hi, d, hd, hk⟩)
    · obtain ⟨he, hi⟩ := mem_chronicle.mp he
      exact ⟨e, mem_chronicle.mpr ⟨List.mem_append_left _ he, hi⟩, hk⟩
    · exact ⟨_, mem_chronicle.mpr ⟨List.mem_append_right _ (List.mem_map_of_mem hd), hi⟩, hk⟩

theorem noted_append_of_none {kind : Deed → Bool} {i : Nat} {log : List Note} {now : Nat} {me : Strand}
    {j : Option Nat} {ds : List Deed} (h : j = some i → ∀ d ∈ ds, kind d = false) :
    Noted kind i (log ++ ds.map fun d => ⟨now, me, j, d⟩) ↔ Noted kind i log := by
  rw [noted_append]
  refine ⟨fun hn => hn.resolve_right ?_, .inl⟩
  rintro ⟨hi, d, hd, hk⟩
  cases (h hi d hd).symm.trans hk

/-! ### Who comes to a record -/

/-- Whoever comes to a record but its create comes there after its create succeeded. -/
structure System.Reached (log : List Note) (s : System) : Prop where
  listed : ∀ {id : String} {i : Nat}, s.store.directory.find? id = some i → Noted Deed.enrolls i log
  arrived : ∀ {n : Nat} {id : String} {p : Point (.remove id)} {i : Nat}, s.calls[n]? = some ⟨.remove id, p⟩ →
    p.record? ⟨n, 0⟩ = some i → Noted Deed.enrolls i log
  removed : ∀ {i : Nat}, Noted Deed.removes i log → Noted Deed.enrolls i log

theorem Pace.reach {backend : String} {me : Strand} {s t : Store} {id : String} {p : Point (.remove id)} {q : Running}
    {ds : List Deed} (h : Pace backend me s ⟨.remove id, p⟩ ds q t) (you : Strand) :
    ∃ p', q = ⟨.remove id, p'⟩ ∧ ∀ i, p'.record? you = some i →
      p.record? you = some i ∨ ∃ name, s.directory.find? name = some i := by
  cases h with
  | removeFound hi =>
    refine ⟨_, rfl, fun i h => .inr ⟨id, ?_⟩⟩
    cases h
    exact hi
  | enter hg => exact ⟨_, rfl, fun i h => .inl h⟩
  | arrive j => exact ⟨_, rfl, fun i h => .inl h⟩
  | destroy hr hl hd => exact ⟨_, rfl, fun i h => .inl h⟩
  | destroyed hr => exact ⟨_, rfl, fun i h => .inl h⟩
  | closed hr => exact ⟨_, rfl, fun i h => .inl h⟩
  | told hcall result => rcases hcall with ⟨_, e⟩ | ⟨_, e⟩ | e <;> cases e
  | _ => exact ⟨_, rfl, fun i h => nomatch h⟩

theorem Redirect.removes {p : Running} {d d' : Table Nat} {ds : List Deed} (h : Redirect p d ds d')
    (hd : ∃ e ∈ ds, e.removes = true) : ∃ name id i, p = ⟨.remove name, .inside (.forget id i)⟩ := by
  obtain ⟨e, he, hr⟩ := hd
  cases h with
  | enroll id i hp =>
    rw [List.mem_singleton.mp he] at hr
    cases hr
  | @forget name id i hp => exact ⟨name, id, i, hp⟩
  | keep hds => cases (hds e he).2.symm.trans hr

theorem System.Reached.after {log : List Note} {s : System} {me : Strand} {p q : Running} {ds : List Deed} {t : Store}
    (h : s.Reached log) (hp : s.calls[me.call]? = some p) (hq : Pace s.backend me s.store p ds q t) :
    (s.after me q t).Reached
      (log ++ ds.map fun d => ⟨s.store.now, me, (p.point.record? me).or (q.point.record? me), d⟩) where
  listed := by
    intro id i hi
    obtain hi | ⟨spec, suffix, rfl⟩ := hq.redirect.find?_cases hi
    · exact noted_append.mpr (.inl (h.listed hi))
    · cases hq with
      | enroll id i => exact noted_append.mpr (.inr ⟨rfl, _, List.mem_singleton_self _, rfl⟩)
  arrived := by
    intro n id p' i hn hrec
    refine noted_append.mpr (.inl ?_)
    by_cases hcall : me.call = n
    · subst hcall
      simp only [System.after, List.getElem?_set_self (List.getElem?_eq_some_iff.mp hp).1, Option.some.injEq] at hn
      subst hn
      obtain ⟨c, p⟩ := p
      obtain rfl : .remove id = c := hq.may.1
      obtain ⟨p'', heq, hreach⟩ := hq.reach ⟨me.call, 0⟩
      cases heq
      obtain hi | ⟨name, hi⟩ := hreach i hrec
      · exact h.arrived hp hi
      · exact h.listed hi
    · simp only [System.after, List.getElem?_set_ne hcall] at hn
      exact h.arrived hn hrec
  removed := by
    intro i hn
    refine noted_append.mpr (.inl ?_)
    obtain hn | ⟨hi, hd⟩ := noted_append.mp hn
    · exact h.removed hn
    · obtain ⟨name, id, j, rfl⟩ := hq.redirect.removes hd
      exact h.arrived hp hi

section
variable {backend : String} {catalog : Option String} {now : Nat} {log : List Note} {s : System}

theorem Run.reached (h : Run (.new backend catalog now) log s) : s.Reached log := by
  refine Run.induct (P := fun log s => s.Reached log) ?_ ?_ h
  · refine ⟨?_, ?_, ?_⟩
    · intro id i hi
      cases hi
    · intro n id p i hn
      cases hn
    · rintro i ⟨e, he, -⟩
      cases he
  · intro log notes t u _ ih hg
    cases hg with
    | start c =>
      rw [List.append_nil]
      refine ⟨ih.listed, fun {n id p i} hn hi => ?_, ih.removed⟩
      simp only [System.start, List.getElem?_append] at hn
      by_cases hlt : n < t.calls.length
      · rw [if_pos hlt] at hn
        exact ih.arrived hn hi
      · rw [if_neg hlt] at hn
        cases List.mem_singleton.mp (List.mem_of_getElem? hn)
        cases hi
    | pace hp hq => exact ih.after hp hq
    | pass milliseconds =>
      rw [List.append_nil]
      exact ⟨ih.listed, ih.arrived, ih.removed⟩
    | enableImageBoot =>
      rw [List.append_nil]
      exact ⟨ih.listed, ih.arrived, ih.removed⟩

/-! ### Listed until removed -/

/-- A record whose create succeeded is listed under its id until a remove of it succeeds. -/
def System.Indexed (log : List Note) (s : System) : Prop :=
  ∀ i b, s.store.origins i = some b → Noted Deed.enrolls i log →
    (s.store.directory.find? b.id = some i ↔ ¬Noted Deed.removes i log)

theorem Run.maker_of_enroll (h : Run (.new backend catalog now) log s) {n : Nat} {spec : Sandbox.Spec}
    {suffix : UInt32} {id : String} {i : Nat}
    (hp : s.calls[n]? = some ⟨.create spec suffix, .inside (.enroll id i)⟩) : ∃ b, Maker log s n i b ∧ b.id = id := by
  cases h.orderly.course hp with
  | create hes hc =>
    cases hc with
    | enrolling vm rest ho => exact ⟨_, ⟨ho, rfl, suffix, _, vm, rest, hp, .inr (.inl rfl), hes⟩, rfl⟩

/-- A create that is about to enroll its record has not done so before, and nobody else does. -/
theorem Run.not_enrolled (h : Run (.new backend catalog now) log s) {n : Nat} {spec : Sandbox.Spec}
    {suffix : UInt32} {id : String} {i : Nat}
    (hp : s.calls[n]? = some ⟨.create spec suffix, .inside (.enroll id i)⟩) : ¬Noted Deed.enrolls i log := by
  rintro ⟨e, he, hk⟩
  obtain ⟨b, hm, -⟩ := h.maker_of_enroll hp
  obtain ⟨⟨c, p⟩, hp', -, hmem⟩ := h.course_of_mem (mem_chronicle.mp he).1
  have hmay := h.may hp' e hmem
  unfold Deed.enrolls at hk
  split at hk
  · rename_i hd
    rw [hd] at hmay
    obtain rfl := of_decide_eq_true hmay
    obtain ⟨b', hm'⟩ := h.maker_of_mem he hp'
    obtain rfl := hm.call_eq h hm'
    have hend := h.ending hp
    rw [show (Point.inside (.enroll id i) : Point (.create spec suffix)).ending = [] from rfl,
      List.filter_eq_nil_iff] at hend
    exact hend e.deed (List.mem_map_of_mem hmem) (by rw [hd]; rfl)
  · cases hk

theorem Run.indexed_after (h : Run (.new backend catalog now) log s) (hf : Fresh log) (ih : s.Indexed log)
    {me : Strand} {p q : Running} {ds : List Deed} {t : Store} (hp : s.calls[me.call]? = some p)
    (hq : Pace s.backend me s.store p ds q t) :
    (s.after me q t).Indexed
      (log ++ ds.map fun d => ⟨s.store.now, me, (p.point.record? me).or (q.point.record? me), d⟩) := by
  intro i b hb henrolled
  -- A record of which anything was noted had been made before the step.
  have old (hn : Noted Deed.enrolls i log) : s.store.origins i = some b := by
    obtain ⟨e, he, -⟩ := hn
    by_cases hi : i < s.store.records.length
    · have ho := Store.origins_eq (List.getElem?_eq_getElem hi)
      exact ho.trans ((hq.grows _ _ ho).symm.trans hb)
    · rw [h.chronicle_eq_nil (Nat.le_of_not_lt hi)] at he
      cases he
  have hd := hq.redirect
  show t.directory.find? b.id = some i ↔ _
  generalize t.directory = d at hd
  cases hd with
  | keep hds =>
    have hn := (noted_append_of_none fun _ e he => (hds e he).1).mp henrolled
    rw [noted_append_of_none fun _ e he => (hds e he).2]
    exact ih i b (old hn) hn
  | @enroll spec suffix id j hp' =>
    subst hp'
    obtain ⟨b', hm, rfl⟩ := h.maker_of_enroll hp
    rw [noted_append_of_none fun _ => List.forall_mem_singleton.mpr rfl, Table.find?_insert]
    by_cases hij : j = i
    · subst hij
      -- It is listed from now on, and nobody has removed it: nobody came to it before.
      obtain rfl := Option.some.inj ((hq.grows _ _ hm.origin).symm.trans hb)
      rw [if_pos rfl]
      exact ⟨fun _ hn => h.not_enrolled hp (h.reached.removed hn), fun _ => rfl⟩
    · obtain hn | ⟨hi, -⟩ := noted_append.mp henrolled
      · -- Another record has another id, since its machine has.
        have hne : b'.id ≠ b.id := by
          intro hid
          obtain ⟨call, hm'⟩ := h.maker (old hn)
          obtain ⟨e, he, hcall, hmachine⟩ := hm.provisioned
          have := h.maker_of_machine hf he hmachine (old hn) (hm'.named.symm.trans (hid.symm.trans hm.named))
          exact hij (hm.record_eq (hcall ▸ this))
        rw [if_neg hne]
        exact ih i b (old hn) hn
      · exact absurd (Option.some.inj hi) hij
  | @forget name id j hp' =>
    subst hp'
    have hn := (noted_append_of_none fun _ => List.forall_mem_singleton.mpr rfl).mp henrolled
    by_cases hij : j = i
    · subst hij
      have hid : b.id = id := by
        cases h.orderly.course hp with
        | remove hes hc =>
          cases hc with
          | forgetting ho hid =>
            cases ho.symm.trans (old hn)
            exact hid
      subst hid
      refine iff_of_false (fun hi => ?_) fun hr => hr (noted_append.mpr (.inr ⟨rfl, _, List.mem_singleton_self _, rfl⟩))
      split at hi
      · rw [Table.find?_erase, if_pos rfl] at hi
        cases hi
      · contradiction
    · refine Iff.trans ?_ (not_congr (noted_append_of_none fun hi => absurd (Option.some.inj hi) hij)).symm
      rw [← ih i b (old hn) hn]
      split
      · rename_i hj
        rw [Table.find?_erase]
        by_cases hid : id = b.id
        · rw [if_pos hid, ← hid, hj]
          -- The id led to the record that is forgotten, and leads nowhere now.
          exact iff_of_false nofun fun hi => hij (Option.some.inj hi)
        · rw [if_neg hid]
      · exact Iff.rfl

theorem Run.indexed (h : Run (.new backend catalog now) log s) (hf : Fresh log) : s.Indexed log := by
  refine Run.induct (P := fun log s => Fresh log → s.Indexed log) ?_ ?_ h hf
  · intro _ i b hb
    cases hb
  · intro log notes t u hrun ih hg hf
    have ih := ih hf.of_append
    cases hg with
    | start c =>
      rw [List.append_nil]
      exact ih
    | pace hp hq => exact hrun.indexed_after hf.of_append ih hp hq
    | pass milliseconds =>
      rw [List.append_nil]
      exact ih
    | enableImageBoot =>
      rw [List.append_nil]
      exact ih

end

end PodMachines.Pods
