import PodMachines.Proofs.Pods.Account
import PodMachines.Proofs.Pods.Pace

/-! Whether images are booted, and which image a machine is asked for with. Nothing but `enableImageBoot` touches the
    former, and it is never undone; the latter is chosen at the one step at which a create asks for its machine. -/

namespace PodMachines.Pods

section
variable {backend : String} {me : Strand} {s t : Store} {p q : Running} {ds : List Deed}

theorem Check.Pace.imageBoot_eq {check next : Check} (h : check.Pace me s ds next t) : t.imageBoot = s.imageBoot := by
  cases h <;> rfl

theorem Pace.imageBoot_eq (h : Pace backend me s p ds q t) : t.imageBoot = s.imageBoot := by
  cases h with
  | check h => exact h.imageBoot_eq
  | gather hc h => exact h.imageBoot_eq
  | forget id i => split <;> rfl
  | _ => rfl

theorem Pace.of_asks_provision (h : Pace backend me s p ds q t) {vm : Machine.Spec}
    (hd : .asks (.backend (.provision vm)) ∈ ds) :
    ∃ spec suffix, p = ⟨.create spec suffix, .starting⟩ ∧
      vm = .forPod spec.nspace spec.name (if s.imageBoot then spec.bootImage else none) suffix := by
  have nothing {β : Prop} {c : Call} {point : Point c} (h : Deed.asks (.backend (.provision vm)) ∈ point.ending) : β := by
    cases point <;> simp [Point.ending] at h
  have check {β : Prop} {check next : Check} {ds : List Deed} {t : Store} (h : check.Pace me s ds next t)
      (hd : Deed.asks (.backend (.provision vm)) ∈ ds) : β := by
    cases h <;> simp at hd
  cases h with
  | @provision spec suffix vm' hv =>
    obtain rfl : vm = vm' := by simpa using hd
    exact ⟨spec, suffix, rfl, hv⟩
  | listed => exact nothing hd
  | check h => exact (List.mem_append.mp hd).elim (check h) nothing
  | gather hc h => exact (List.mem_append.mp hd).elim (check h) nothing
  | _ => simp at hd

end

namespace System
variable {s t : System} {m : Move}

theorem imageBoot_of_move (h : s.move? m = some t) :
    t.store.imageBoot = true ↔ s.store.imageBoot = true ∨ m = .enableImageBoot := by
  have kept {m : Move} (hne : m ≠ .enableImageBoot) (heq : t.store.imageBoot = s.store.imageBoot) :
      t.store.imageBoot = true ↔ s.store.imageBoot = true ∨ m = .enableImageBoot := by
    rw [heq, or_iff_left hne]
  cases m with
  | start c => cases h; exact kept nofun rfl
  | pass milliseconds => cases h; exact kept nofun rfl
  | enableImageBoot => cases h; exact iff_of_true rfl (.inr rfl)
  | advance me =>
    obtain ⟨p, q, ds, st, hp, rfl, hnotes, hpace⟩ := pace_of_advance h
    exact kept nofun hpace.imageBoot_eq
  | answer me request a =>
    obtain ⟨p, q, ds, st, hp, rfl, hnotes, hpace⟩ := pace_of_answer h
    exact kept nofun hpace.imageBoot_eq

end System
end PodMachines.Pods
