import PodMachines.Proofs.Pods.Question

/-! How a create fails. Main statement: by what fails first it has asked for so much and no more, its machine, if it has
    got one, is ended once, and what becomes of that makes no difference to how it fails. -/

namespace PodMachines

/-- What a failure is told as: it stays what it is if it is of the kind; else it is told as one of that kind, of
    something, in the words that it has. -/
inductive Failure.ToldAs (kind : String → String → Failure) (what : String) : Failure → Failure → Prop
  | same (of message : String) : ToldAs kind what (kind of message) (kind of message)
  | other {f : Failure} (h : ∀ of message, f ≠ kind of message) : ToldAs kind what f (kind what f.message)

namespace Failure

theorem asProvision_toldAs (backend : String) (f : Failure) : ToldAs .provision backend f (f.asProvision backend) := by
  cases f with
  | provision of message => exact .same of message
  | _ => exact .other nofun

theorem asNetwork_toldAs (id : String) (f : Failure) : ToldAs .network id f (f.asNetwork id) := by
  cases f with
  | network of message => exact .same of message
  | _ => exact .other nofun

theorem asUnreachable_toldAs (address : String) (f : Failure) :
    ToldAs .agentUnreachable address f (f.asUnreachable address) := by
  cases f with
  | agentUnreachable of message => exact .same of message
  | _ => exact .other nofun

theorem ToldAs.status_eq {kind : String → String → Failure} {what : String} {f why : Failure} {code : Code}
    (h : ToldAs kind what f why) (hk : ∀ of message, (kind of message).status = ⟨code, (kind of message).message⟩) :
    why.status = ⟨code, why.message⟩ := by
  cases h with
  | same of message => exact hk of message
  | other h => exact hk what f.message

end Failure

namespace Pods

def Deed.asked? : Deed → Option Request
  | .asks request => some request
  | _ => none

/-- What a call has asked of others, in order. -/
def asked (n : Nat) (log : List Note) : List Request :=
  (account n log).filterMap fun e => e.deed.asked?

/-- Whether a call was answered so. -/
def WasAnswered (log : List Note) (n : Nat) (request : Request) (a : request.Answer) : Prop :=
  ∃ e ∈ log, e.strand.call = n ∧ e.deed = .hears request a

theorem asked_eq (n : Nat) (log : List Note) :
    asked n log = ((account n log).map Note.entry).filterMap fun e => e.2.asked? := by
  rw [asked, List.filterMap_map]
  rfl

theorem wasAnswered_iff {log : List Note} {n : Nat} {request : Request} {a : request.Answer} :
    WasAnswered log n request a ↔ ∃ i, (i, Deed.hears request a) ∈ (account n log).map Note.entry := by
  simp only [mem_account_entries]
  constructor
  · rintro ⟨e, he, hn, hd⟩
    exact ⟨e.record, e, he, hn, rfl, hd⟩
  · rintro ⟨i, e, he, hn, -, hd⟩
    exact ⟨e, he, hn, hd⟩

/-- A create that ends its machine fails for its reason, whatever becomes of the machine. -/
inductive Discards (log : List Note) (s : System) (n : Nat) (spec : Sandbox.Spec) (suffix : UInt32)
    (machine : Machine.Handle) (why : Failure) : Prop
  | waiting (h : ∀ a : Except Failure Unit, ∃ t, s.answer ⟨n, 0⟩ (.backend (.destroy machine)) a = some t ∧
      t.result? n (.create spec suffix) = some (.error why))
  | ended (a : Except Failure Unit) (ha : WasAnswered log n (.backend (.destroy machine)) a)
      (hr : s.result? n (.create spec suffix) = some (.error why))

/-- How a create fails, by what fails first. -/
structure Fails (backend : String) (log : List Note) (s : System) (n : Nat) (spec : Sandbox.Spec) (suffix : UInt32) :
    Prop where
  /-- Without a machine there is nothing to end. -/
  unprovisioned : ∀ vm f, WasAnswered log n (.backend (.provision vm)) (.error f) →
    ∃ why, f.ToldAs .provision backend why ∧ why.status = ⟨.internal, why.message⟩ ∧
      asked n log = [.backend (.provision vm)] ∧ s.result? n (.create spec suffix) = some (.error why)
  /-- A machine without an address is ended, and no agent is looked for. -/
  unaddressed : ∀ machine found, WasAnswered log n (.backend (.addresses machine)) found →
    (found = .ok [] ∨ ∃ f, found = .error f) → ∃ vm why,
      (found = .ok [] → why = .network machine.id "backend reported no address") ∧
      (∀ f, found = .error f → f.ToldAs .network machine.id why) ∧ why.status = ⟨.unavailable, why.message⟩ ∧
      WasAnswered log n (.backend (.provision vm)) (.ok machine) ∧
      asked n log = [.backend (.provision vm), .backend (.addresses machine), .backend (.destroy machine)] ∧
      Discards log s n spec suffix machine why
  /-- A machine whose agent is not reached is ended. -/
  unconnected : ∀ address f, WasAnswered log n (.connect address) (.error f) → ∃ vm machine why,
    f.ToldAs .agentUnreachable address.toText why ∧ why.status = ⟨.unavailable, why.message⟩ ∧
      WasAnswered log n (.backend (.provision vm)) (.ok machine) ∧
      asked n log = [.backend (.provision vm), .backend (.addresses machine), .connect address,
        .backend (.destroy machine)] ∧
      Discards log s n spec suffix machine why

section
variable {backend : String} {o : Origins} {spec : Sandbox.Spec} {suffix : UInt32} {p : Point (.create spec suffix)}
  {es : List Entry} {i : Option Nat}

theorem Creation.of_unprovisioned (h : Creation backend o spec suffix p es) {vm : Machine.Spec} {f : Failure}
    (hi : (i, Deed.hears (.backend (.provision vm)) (.error f)) ∈ es) :
    p = .finished (.error (f.asProvision backend)) ∧
      es.filterMap (fun e => e.2.asked?) = [.backend (.provision vm)] := by
  cases h with
  | unprovisioned vm' f' =>
    obtain ⟨-, rfl, rfl⟩ : i = none ∧ vm = vm' ∧ f = f' := by simpa [entries] using hi
    exact ⟨rfl, rfl⟩
  | discarding vm hlost | discarded vm hlost a => cases hlost <;> simp [entries, provided, located] at hi
  | _ => simp [entries, provided, located] at hi

/-- How far a create has come that ends its machine. -/
def Gone (p : Point (.create spec suffix)) (es : List Entry) (machine : Machine.Handle) (why : Failure) : Prop :=
  p = .discarding machine why ∨
    ∃ a, p = .finished (.error why) ∧ (none, Deed.hears (.backend (.destroy machine)) a) ∈ es

theorem Creation.of_unaddressed (h : Creation backend o spec suffix p es) {machine : Machine.Handle}
    {found : Except Failure (List Address)} (hi : (i, Deed.hears (.backend (.addresses machine)) found) ∈ es)
    (hfound : found = .ok [] ∨ ∃ f, found = .error f) :
    ∃ vm why, ((found = .ok [] ∧ why = .network machine.id "backend reported no address") ∨
        ∃ f, found = .error f ∧ why = f.asNetwork machine.id) ∧
      (none, Deed.hears (.backend (.provision vm)) (.ok machine)) ∈ es ∧
      es.filterMap (fun e => e.2.asked?) =
        [.backend (.provision vm), .backend (.addresses machine), .backend (.destroy machine)] ∧
      Gone p es machine why := by
  have located {address : Address} {rest : List Address} {other : Machine.Handle}
      (h : i = none ∧ machine = other ∧ found = .ok (address :: rest)) : False := by
    obtain ⟨-, -, rfl⟩ := h
    obtain h | ⟨f, h⟩ := hfound <;> cases h
  cases h with
  | discarding vm hlost =>
    cases hlost with
    | unaddressed found' hw =>
      obtain ⟨-, rfl, rfl⟩ : i = none ∧ machine = _ ∧ found = found' := by simpa [entries, provided] using hi
      exact ⟨vm, _, hw, by simp [entries, provided], rfl, .inl rfl⟩
    | unconnected address rest f => exact (located (by simpa [entries, provided, Pods.located] using hi)).elim
  | discarded vm hlost a =>
    cases hlost with
    | unaddressed found' hw =>
      obtain ⟨-, rfl, rfl⟩ : i = none ∧ machine = _ ∧ found = found' := by simpa [entries, provided] using hi
      exact ⟨vm, _, hw, by simp [entries, provided], rfl, .inr ⟨a, rfl, by simp [entries]⟩⟩
    | unconnected address rest f => exact (located (by simpa [entries, provided, Pods.located] using hi)).elim
  | connecting | connected | enrolling | enrolled =>
    exact (located (by simpa [entries, provided, Pods.located] using hi)).elim
  | _ => simp [entries, provided] at hi

theorem Creation.of_unconnected (h : Creation backend o spec suffix p es) {address : Address} {f : Failure}
    (hi : (i, Deed.hears (.connect address) (.error f)) ∈ es) :
    ∃ vm machine, (none, Deed.hears (.backend (.provision vm)) (.ok machine)) ∈ es ∧
      es.filterMap (fun e => e.2.asked?) = [.backend (.provision vm), .backend (.addresses machine), .connect address,
        .backend (.destroy machine)] ∧
      Gone p es machine (f.asUnreachable address.toText) := by
  cases h with
  | @discarding vm machine _ _ hlost =>
    cases hlost with
    | unaddressed found hw => simp [entries, provided] at hi
    | unconnected address' rest f' =>
      obtain ⟨-, rfl, rfl⟩ : i = none ∧ address = address' ∧ f = f' := by simpa [entries, provided, located] using hi
      exact ⟨vm, machine, by simp [entries, provided], rfl, .inl rfl⟩
  | @discarded vm machine _ _ hlost a =>
    cases hlost with
    | unaddressed found hw => simp [entries, provided] at hi
    | unconnected address' rest f' =>
      obtain ⟨-, rfl, rfl⟩ : i = none ∧ address = address' ∧ f = f' := by simpa [entries, provided, located] using hi
      exact ⟨vm, machine, by simp [entries, provided], rfl, .inr ⟨a, rfl, by simp [entries, located]⟩⟩
  | _ => simp [entries, provided, located] at hi

end

section
variable {backend : String} {catalog : Option String} {now : Nat} {log : List Note} {s : System}

theorem discards_of_discarding {log : List Note} {s : System} {n : Nat} {spec : Sandbox.Spec}
    {suffix : UInt32} {machine : Machine.Handle} {why : Failure}
    (hp : s.calls[n]? = some ⟨.create spec suffix, .discarding machine why⟩) :
    Discards log s n spec suffix machine why := by
  refine .waiting fun a => ?_
  have hr : s.request? ⟨n, 0⟩ = some (.backend (.destroy machine)) := by
    rw [System.request?, hp]
    rfl
  let final : Point (.create spec suffix) := .finished (.error why)
  refine ⟨s.place n (final, s.store), ?_, ?_⟩
  · rw [System.answer, if_pos hr, hp]
    rfl
  · rw [System.result?_eq_some, System.place]
    exact List.getElem?_set_self (List.getElem?_eq_some_iff.mp hp).1

theorem Run.backend_eq {first : System} (h : Run first log s) : s.backend = first.backend := by
  refine Run.induct (P := fun _ s => s.backend = first.backend) rfl ?_ h
  intro log notes t u _ ih hg
  cases hg <;> exact ih

theorem Run.creation (h : Run (.new backend catalog now) log s) {n : Nat} {spec : Sandbox.Spec} {suffix : UInt32}
    {p : Point (.create spec suffix)} (hp : s.calls[n]? = some ⟨.create spec suffix, p⟩) :
    Creation backend s.store.origins spec suffix p ((account n log).map Note.entry) := by
  have hbackend : s.backend = backend := h.backend_eq
  cases h.orderly.course hp with
  | create hes hc =>
    rw [hes, ← hbackend]
    exact hc

theorem Run.create_fails (h : Run (.new backend catalog now) log s) {n : Nat} {spec : Sandbox.Spec} {suffix : UInt32}
    {p : Point (.create spec suffix)} (hp : s.calls[n]? = some ⟨.create spec suffix, p⟩) :
    Fails backend log s n spec suffix := by
  have hc := h.creation hp
  generalize hes : (account n log).map Note.entry = es at hc
  have heard {request : Request} {a : request.Answer} (ha : WasAnswered log n request a) :
      ∃ i, (i, Deed.hears request a) ∈ es := by
    rw [← hes]
    exact wasAnswered_iff.mp ha
  have given {vm : Machine.Spec} {machine : Machine.Handle}
      (hm : (none, Deed.hears (.backend (.provision vm)) (.ok machine)) ∈ es) :
      WasAnswered log n (.backend (.provision vm)) (.ok machine) :=
    wasAnswered_iff.mpr ⟨none, hes ▸ hm⟩
  have discards {machine : Machine.Handle} {why : Failure} (hgone : Gone p es machine why) :
      Discards log s n spec suffix machine why := by
    obtain rfl | ⟨a, rfl, ha⟩ := hgone
    · exact discards_of_discarding hp
    · exact .ended a (wasAnswered_iff.mpr ⟨none, hes ▸ ha⟩) (System.result?_eq_some.mpr hp)
  refine ⟨fun vm f ha => ?_, fun machine found ha hfound => ?_, fun address f ha => ?_⟩
  · obtain ⟨i, hi⟩ := heard ha
    obtain ⟨rfl, hasked⟩ := hc.of_unprovisioned hi
    have htold := f.asProvision_toldAs backend
    exact ⟨_, htold, htold.status_eq fun _ _ => rfl, (asked_eq n log).trans (hes ▸ hasked),
      System.result?_eq_some.mpr hp⟩
  · obtain ⟨i, hi⟩ := heard ha
    obtain ⟨vm, why, hwhy, hm, hasked, hgone⟩ := hc.of_unaddressed hi hfound
    refine ⟨vm, why, ?_, ?_, ?_, given hm, (asked_eq n log).trans (hes ▸ hasked), discards hgone⟩
    · rintro rfl
      obtain ⟨-, rfl⟩ | ⟨f, hf, -⟩ := hwhy
      · rfl
      · cases hf
    · rintro f rfl
      obtain ⟨hf, -⟩ | ⟨g, hg, rfl⟩ := hwhy
      · cases hf
      · cases hg
        exact f.asNetwork_toldAs _
    · obtain ⟨-, rfl⟩ | ⟨f, -, rfl⟩ := hwhy
      · rfl
      · exact (f.asNetwork_toldAs machine.id).status_eq fun _ _ => rfl
  · obtain ⟨i, hi⟩ := heard ha
    obtain ⟨vm, machine, hm, hasked, hgone⟩ := hc.of_unconnected hi
    have htold := f.asUnreachable_toldAs address.toText
    exact ⟨vm, machine, _, htold, htold.status_eq fun _ _ => rfl, given hm, (asked_eq n log).trans (hes ▸ hasked),
      discards hgone⟩

end
end Pods
end PodMachines
