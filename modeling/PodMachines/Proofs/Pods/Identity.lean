import PodMachines.Proofs.Pods.Interval

/-! What a sandbox keeps for its whole life: what is told of a record, whenever and by whichever call, is what the record
    was made with. -/

namespace PodMachines.Pods

/-- Whether a status tells what its record was made with. -/
structure Origin.Shown (b : Origin) (status : Sandbox.Status) : Prop where
  id : status.id = b.id
  spec : status.spec = b.spec
  createdAt : status.createdAt = b.createdAt
  address : status.address = b.address

theorem Record.shown (r : Record) : r.origin.Shown r.snapshot :=
  ⟨rfl, rfl, rfl, rfl⟩

section
variable {backend : String} {catalog : Option String} {now : Nat} {log : List Note} {s : System} {i n : Nat}
  {status : Sandbox.Status}

theorem Run.shown (h : Run (.new backend catalog now) log s) {e : Note} (he : e ∈ chronicle i log)
    (ht : e.deed.told? = some status) : ∃ b, s.store.origins i = some b ∧ b.Shown status := by
  obtain ⟨he, hi⟩ := mem_chronicle.mp he
  obtain ⟨pre, u, m, v, post, hpre, hm, hpost, -, hnote⟩ := h.at_note he
  obtain ⟨-, me, -, r, -, -, -, -, -, hr, rfl⟩ := hpre.shows hm hnote ht hi
  exact ⟨r.origin, hpost.grows i _ (Store.origins_eq hr), r.shown⟩

theorem Run.told_id (h : Run (.new backend catalog now) log s) {id : String}
    (hr : s.result? n (.status id) = some (.ok status)) : status.id = id := by
  cases h.orderly.course (System.result?_eq_some.mp hr) with
  | status hes hc =>
    cases hc with
    | told hb hid hcheck => exact hcheck.id_eq.trans hid

end

end PodMachines.Pods
