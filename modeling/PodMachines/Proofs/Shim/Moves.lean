import PodMachines.Proofs.Shim.Rig

/-! Single moves of the service with those who work for it, as runs: work is begun, replied to and told, and the pods go on
    by themselves. Each can be made wherever it makes sense. -/

namespace PodMachines.Rig
open Service
variable {α : Type} {s t : Rig α} {o : Order} {i : Nat} {talk : Program.Talk Ask Ask.Reply}

/-- A state that a run of the service comes to. -/
def Reached (s : Rig α) : Prop :=
  ∃ backend connector now images log, Run (.new backend connector now images) log s

theorem Reached.run {log : List Pods.Note} (h : s.Reached) (hr : Run s log t) : t.Reached := by
  obtain ⟨backend, connector, now, images, earlier, h⟩ := h
  exact ⟨backend, connector, now, images, _, h.trans hr⟩

theorem Reached.tended (h : s.Reached) : s.Tended := by
  obtain ⟨backend, connector, now, images, log, h⟩ := h
  exact h.tended rfl

/-! ### Moves -/

theorem rest_run {e : Errand} (hi : s.errands[i]? = some e) : Run s [] { s with errands := s.errands.set i e } := by
  have heq : ({ s with errands := s.errands.set i e } : Rig α) = s := by rw [← Pods.set_self hi]
  rw [heq]
  exact .rest

theorem begin_run (hd : s.due o = true) (hb : s.busy o.giver = false) :
    Run s [] { s with errands := s.errands ++ [⟨o, [], s.work o, false⟩] } := by
  have hm : s.move? (.begin o) = some { s with errands := s.errands ++ [⟨o, [], s.work o, false⟩] } := by
    rw [move?, hd, hb]
    rfl
  exact Run.rest.move _ hm

theorem reply_run {q : Ask} {next : q.Reply → Work o.Answer}
    (hi : s.errands[i]? = some ⟨o, talk, Program.ask q next, false⟩) (answer : (q : Ask) → q.Reply) :
    Run s [] { s with errands := s.errands.set i ⟨o, talk ++ [⟨q, answer q⟩], next (answer q), false⟩ } := by
  have hm : s.move? (.reply i answer) =
      some { s with errands := s.errands.set i ⟨o, talk ++ [⟨q, answer q⟩], next (answer q), false⟩ } := by
    rw [move?, hi]
    rfl
  exact Run.rest.move _ hm

theorem pods_run {m : Pods.Move} (hf : free (.pods m : Shim.Move α) = true) {pods : Pods.System}
    (h : s.shim.pods.move? m = some pods) :
    ∃ log, Run s log { s with shim := { s.shim with pods := pods, closed := s.shim.closed ++ Shim.closes m } } := by
  have hm : s.move? (.shim (.pods m)) =
      some { s with shim := { s.shim with pods := pods, closed := s.shim.closed ++ Shim.closes m } } := by
    rw [move?, hf, if_pos rfl, Shim.move?, h]
    rfl
  exact ⟨_, Run.rest.move _ hm⟩

/-- Work that was told is under way no more, and there is no other for the same. -/
theorem idle_of_told (h : s.Tended) {e : Errand} (hi : s.errands[i]? = some e) (ho : e.told = false)
    (ht : t.errands = s.errands.set i { e with told := true }) : t.busy e.order.giver = false := by
  refine busy_eq_false.mpr fun x hx hopen hgiver => ?_
  rw [ht] at hx
  obtain ⟨k, hk⟩ := List.getElem?_of_mem hx
  obtain ⟨-, rfl⟩ | ⟨hne, hk⟩ := Pods.of_getElem?_set hk
  · cases hopen
  · exact hne (h.apart hi hk ho hopen hgiver.symm).symm

/-- Work that a strand waits for has come to its end, and the strand goes on. -/
theorem told_run (h : s.Reached) {me : Pods.Strand} {request : Pods.Request} {a : request.Answer}
    (hi : s.errands[i]? = some ⟨.strand me request, talk, .done a, false⟩) :
    ∃ pods log, s.shim.pods.answer me request a = some pods ∧
      let t : Rig α :=
        { s with
          shim := { s.shim with pods := pods, closed := s.shim.closed ++ Shim.closes (.answer me request a) }
          errands := s.errands.set i ⟨.strand me request, talk, .done a, true⟩ }
      Run s log t ∧ t.busy (.inl me) = false := by
  have htended := h.tended
  have hasks := htended.asks hi rfl rfl
  obtain ⟨backend, connector, now, images, log, hrun⟩ := h
  obtain ⟨pods, hpods⟩ := hrun.pods.answer_of_asks hasks.1 a
  have hshim : s.shim.move? (.pods (.answer me request a)) =
      some { s.shim with pods := pods, closed := s.shim.closed ++ Shim.closes (.answer me request a) } := by
    rw [Shim.move?, Pods.System.move?, hpods]
    rfl
  have hm : s.move? (.tell i) = some
      { s with
        shim := { s.shim with pods := pods, closed := s.shim.closed ++ Shim.closes (.answer me request a) }
        errands := s.errands.set i ⟨.strand me request, talk, .done a, true⟩ } := by
    rw [move?, hi]
    show (s.shim.move? (.pods (.answer me request a))).map _ = _
    rw [hshim]
    rfl
  exact ⟨pods, _, hpods, Run.rest.move _ hm, idle_of_told htended hi rfl rfl⟩

end PodMachines.Rig
