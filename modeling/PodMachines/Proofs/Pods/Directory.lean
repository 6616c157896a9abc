import PodMachines.Proofs.Pods.Account

/-! What becomes of the directory in a run. It changes only when a create or a remove succeeds. What an id leads to
    stays until that is removed, and then the id leads nowhere, unless another create makes a sandbox with the id. -/

namespace PodMachines.Pods

/-- A remove of a record succeeds. -/
def Note.Drops (e : Note) (i : Nat) : Prop :=
  e.record = some i ∧ e.deed.removes = true

/-- A create succeeds with an id. -/
def Note.Makes (e : Note) (id : String) : Prop :=
  ∃ spec suffix, e.deed = .ends (.create spec suffix) (.ok id)

section
variable {backend : String} {catalog : Option String} {now : Nat} {log more : List Note} {s t : System} {id : String}
  {i : Nat}

/-- Where an id leads to a record, a step that makes no sandbox with the id keeps it there, or removes the record. -/
theorem Pace.find?_kept {me : Strand} {p q : Running} {ds : List Deed} {st st' : Store}
    (h : Pace backend me st p ds q st') (hd : st.Placed) {ns : List Note} (hc : Course backend st.origins ns p)
    (hi : st.directory.find? id = some i) (hmake : ∀ d ∈ ds, ∀ spec suffix, d ≠ .ends (.create spec suffix) (.ok id)) :
    (st'.directory.find? id = some i ∧
        ((p.point.record? me).or (q.point.record? me) = some i → ∀ d ∈ ds, d.removes = false)) ∨
      (st'.directory.find? id = none ∧ (p.point.record? me).or (q.point.record? me) = some i ∧
        ∃ d ∈ ds, d.removes = true) := by
  have hr := h.redirect
  generalize st'.directory = d at hr
  cases hr with
  | @enroll spec suffix name j hp =>
    have hne : name ≠ id := by
      rintro rfl
      exact hmake _ (List.mem_singleton_self _) spec suffix rfl
    exact .inl ⟨by rw [Table.find?_insert, if_neg hne, hi], fun _ => List.forall_mem_singleton.mpr rfl⟩
  | @forget name id' j hp =>
    subst hp
    by_cases hij : j = i
    · subst hij
      -- The record has the id under which it is forgotten, and the id that leads to it.
      have hid : id' = id := by
        cases hc with
        | remove hes hc =>
          cases hc with
          | forgetting hb hid =>
            obtain ⟨b', hb', hid'⟩ := hd id j hi
            cases hb.symm.trans hb'
            exact hid.symm.trans hid'
      subst hid
      refine .inr ⟨?_, rfl, _, List.mem_singleton_self _, rfl⟩
      rw [if_pos hi, Table.find?_erase, if_pos rfl]
    · refine .inl ⟨?_, fun hrec => absurd (Option.some.inj hrec) hij⟩
      split
      · rename_i hj
        have hne : id' ≠ id := by
          rintro rfl
          exact hij (Option.some.inj (hj.symm.trans hi))
        rw [Table.find?_erase, if_neg hne, hi]
      · exact hi
  | keep hds => exact .inl ⟨hi, fun _ d hd => (hds d hd).2⟩

/-- Where an id leads nowhere, a step that makes no sandbox with the id keeps it so. -/
theorem Pace.find?_none {me : Strand} {p q : Running} {ds : List Deed} {st st' : Store}
    (h : Pace backend me st p ds q st') (hi : st.directory.find? id = none)
    (hmake : ∀ d ∈ ds, ∀ spec suffix, d ≠ .ends (.create spec suffix) (.ok id)) : st'.directory.find? id = none := by
  have hr := h.redirect
  generalize st'.directory = d at hr
  cases hr with
  | @enroll spec suffix name j hp =>
    have hne : name ≠ id := by
      rintro rfl
      exact hmake _ (List.mem_singleton_self _) spec suffix rfl
    rw [Table.find?_insert, if_neg hne, hi]
  | @forget name id' j hp =>
    split
    · rw [Table.find?_erase]
      split
      · rfl
      · exact hi
    · exact hi
  | keep hds => exact hi

/-- What an id leads to stays until it is removed, and then the id leads nowhere, while no sandbox is made with it. -/
theorem Run.find?_since (h : Run (.new backend catalog now) log s) (hrun : Run s more t)
    (hi : s.store.directory.find? id = some i) (hmake : ∀ e ∈ more, ¬e.Makes id) :
    ((∀ e ∈ more, ¬e.Drops i) → t.store.directory.find? id = some i) ∧
      ((∃ e ∈ more, e.Drops i) → t.store.directory.find? id = none) := by
  suffices (t.store.directory.find? id = some i ∧ ∀ e ∈ more, ¬e.Drops i) ∨
      (t.store.directory.find? id = none ∧ ∃ e ∈ more, e.Drops i) by
    obtain ⟨hfound, hno⟩ | ⟨hgone, hex⟩ := this
    · exact ⟨fun _ => hfound, fun ⟨e, he, hd⟩ => absurd hd (hno e he)⟩
    · exact ⟨fun hno => absurd hex (by simpa using hno), fun _ => hgone⟩
  refine Run.induct (P := fun more t => (∀ e ∈ more, ¬e.Makes id) →
    (t.store.directory.find? id = some i ∧ ∀ e ∈ more, ¬e.Drops i) ∨
      (t.store.directory.find? id = none ∧ ∃ e ∈ more, e.Drops i)) ?_ ?_ hrun hmake
  · exact fun _ => .inl ⟨hi, fun e he => absurd he List.not_mem_nil⟩
  · intro more notes t u hrun ih hg hmake
    have ih := ih fun e he => hmake e (List.mem_append_left _ he)
    cases hg with
    | @pace me p q ds st hp hq =>
      have hno (d : Deed) (hd : d ∈ ds) (spec : Sandbox.Spec) (suffix : UInt32) :
          d ≠ .ends (.create spec suffix) (.ok id) := fun heq =>
        hmake _ (List.mem_append_right _ (List.mem_map_of_mem hd)) ⟨spec, suffix, heq⟩
      obtain ⟨hfound, hnone⟩ | ⟨hgone, e, he, hdrop⟩ := ih
      · have ho := (h.trans hrun).orderly
        obtain ⟨hfound, hkept⟩ | ⟨hgone, hrec, d, hd, hrem⟩ := hq.find?_kept ho.placed (ho.course hp) hfound hno
        · refine .inl ⟨hfound, fun e he hdrop => ?_⟩
          obtain he | he := List.mem_append.mp he
          · exact hnone e he hdrop
          · obtain ⟨d, hd, rfl⟩ := List.mem_map.mp he
            cases (hkept hdrop.1 d hd).symm.trans hdrop.2
        · exact .inr ⟨hgone, _, List.mem_append_right _ (List.mem_map_of_mem hd), hrec, hrem⟩
      · exact .inr ⟨hq.find?_none hgone hno, e, List.mem_append_left _ he, hdrop⟩
    | _ =>
      rw [List.append_nil]
      exact ih

end

end PodMachines.Pods
