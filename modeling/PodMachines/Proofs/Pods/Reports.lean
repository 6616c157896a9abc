import PodMachines.Proofs.Pods.Account

/-! What statuses and lists tell was reported by their checks, each of the record of the sandbox that it is about. -/

namespace PodMachines.Pods

/-! ### What holds at every note -/

/-- `P` holds of every note and the notes before it. -/
def Throughout (P : List Note → Note → Prop) (ns : List Note) : Prop :=
  ∀ pre e post, ns = pre ++ e :: post → P pre e

section
variable {P Q : List Note → Note → Prop} {ns more : List Note} {e : Note}

theorem throughout_nil : Throughout P [] := by
  intro pre e post h
  cases pre <;> cases h

theorem throughout_cons : Throughout P (e :: ns) ↔ P [] e ∧ Throughout (fun pre => P (e :: pre)) ns := by
  constructor
  · intro h
    refine ⟨h [] e ns rfl, fun pre e' post hs => ?_⟩
    exact h (e :: pre) e' post (by rw [hs]; rfl)
  · rintro ⟨h, hs⟩ pre e' post heq
    cases pre with
    | nil =>
      cases heq
      exact h
    | cons x pre =>
      obtain ⟨rfl, htail⟩ := List.cons.inj heq
      exact hs pre e' post htail

theorem throughout_append :
    Throughout P (ns ++ more) ↔ Throughout P ns ∧ Throughout (fun pre => P (ns ++ pre)) more := by
  induction ns generalizing P with
  | nil => exact ⟨fun h => ⟨throughout_nil, h⟩, fun h => h.2⟩
  | cons e ns ih =>
    rw [List.cons_append, throughout_cons, throughout_cons, ih, and_assoc]
    rfl

theorem throughout_of_forall (h : ∀ e ∈ ns, ∀ pre, P pre e) : Throughout P ns := by
  rintro pre e post rfl
  exact h e (by simp) pre

theorem Throughout.imp (h : Throughout P ns) (hi : ∀ pre e, P pre e → Q pre e) : Throughout Q ns :=
  fun pre e post hs => hi pre e (h pre e post hs)

end

/-! ### Reports -/

/-- The state of the machine that an answered query found. -/
def Deed.found? : Deed → Option Machine.State
  | .hears (.backend (.state _)) (.ok x) => some x
  | _ => none

/-- The status that a check reports. -/
def Deed.told? : Deed → Option Sandbox.Status
  | .reports report => report
  | _ => none

theorem Deed.told?_eq_some {d : Deed} {status : Sandbox.Status} :
    d.told? = some status ↔ d = .reports (some status) := by
  cases d <;> simp [told?]

/-- A status is what a status returned, or is in what a list returned. -/
def System.Tells (s : System) (call : Nat) (status : Sandbox.Status) : Prop :=
  (∃ id, s.result? call (.status id) = some (.ok status)) ∨
    ∃ filter statuses, s.result? call (.list filter) = some statuses ∧ status ∈ statuses

theorem Check.Course.reported {b : Origin} {i : Nat} {report : Option Sandbox.Status} {ds : List Deed}
    (h : Check.Course b i (.settled report) ds) : .reports report ∈ ds := by
  cases h <;> simp

theorem Check.Course.id_eq {b : Origin} {i : Nat} {status : Sandbox.Status} {ds : List Deed}
    (h : Check.Course b i (.settled (some status)) ds) : status.id = b.id := by
  cases h <;> assumption

/-! ### Checks -/

/-- Whether it is noted of checks only: a query, the end of one, or a report. -/
def Deed.checks : Deed → Bool
  | .asks (.backend (.state _)) | .hears (.backend (.state _)) _ | .reports _ => true
  | _ => false

theorem countP_entries (p : Deed → Bool) (i : Option Nat) (ds : List Deed) :
    (entries i ds).countP (fun e => p e.2) = ds.countP p :=
  List.countP_map ..

theorem Call.of_checks {c : Call} {d : Deed} (h : c.may d = true) (hd : d.checks = true) :
    (∃ id, c = .status id) ∨ ∃ filter, c = .list filter := by
  cases c with
  | status id => exact .inl ⟨id, rfl⟩
  | list filter => exact .inr ⟨filter, rfl⟩
  | _ =>
    unfold Deed.checks at hd
    split at hd <;> cases hd <;> cases h

theorem Course.of_checks {backend : String} {o : Origins} {p : Running} {ns : List Note} (h : Course backend o ns p)
    {d : Deed} (hmay : p.call.may d = true) (hd : d.checks = true) :
    (∃ id point, p = ⟨.status id, point⟩ ∧ Asking o id point (ns.map Note.entry)) ∨
      ∃ filter point, p = ⟨.list filter, point⟩ ∧ Listing o filter point ns := by
  obtain ⟨id, hc⟩ | ⟨filter, hc⟩ := Call.of_checks hmay hd
  · cases h with
    | status hes h => exact .inl ⟨_, _, rfl, hes ▸ h⟩
    | _ => cases hc
  · cases h with
    | list h => exact .inr ⟨_, _, rfl, h⟩
    | _ => cases hc

/-! ### What is told -/

theorem mem_of_map_entry {ns : List Note} {i : Option Nat} {ds : List Deed} {d : Deed}
    (h : ns.map Note.entry = entries i ds) (hd : d ∈ ds) : ∃ e ∈ ns, e.record = i ∧ e.deed = d := by
  have : (i, d) ∈ ns.map Note.entry := h ▸ mem_entries.mpr ⟨rfl, hd⟩
  obtain ⟨e, he, heq⟩ := List.mem_map.mp this
  obtain ⟨hi, hd⟩ := Prod.mk.inj heq
  exact ⟨e, he, hi, hd⟩

theorem mem_strandDeeds {k : Nat} {ns : List Note} {d : Deed} :
    d ∈ strandDeeds k ns ↔ ∃ e ∈ ns, e.strand.part = k ∧ e.deed = d := by
  simp [strandDeeds, and_assoc]

theorem Rounds.nodup_ids {o : Origins} {targets : List Nat} {checks : List Check} {ns : List Note}
    (h : Rounds o targets checks ns) : (targets.map fun i => (o i).map (·.id)).Nodup := by
  obtain ⟨ids, hn, hids⟩ := h.distinct
  rw [hids]
  exact List.pairwise_map.mpr (hn.imp fun hne heq => hne (Option.some.inj heq))

theorem Rounds.reported {o : Origins} {targets : List Nat} {reports : List (Option Sandbox.Status)} {ns : List Note}
    (h : Rounds o targets (reports.map .settled) ns) {status : Sandbox.Status} (hs : some status ∈ reports) :
    ∃ e ∈ ns, e.deed.told? = some status ∧ ∃ i b, e.record = some i ∧ o i = some b ∧ b.id = status.id := by
  obtain ⟨k, hk⟩ := List.mem_iff_getElem?.mp hs
  have hc : (reports.map Check.settled)[k]? = some (.settled (some status)) := by rw [List.getElem?_map, hk]; rfl
  have ht : k < targets.length := h.length_eq ▸ (List.getElem?_eq_some_iff.mp hc).1
  obtain ⟨b, hb, hcourse⟩ := h.course (List.getElem?_eq_getElem ht) hc
  obtain ⟨e, he, hpart, hd⟩ := mem_strandDeeds.mp hcourse.reported
  obtain ⟨i, hi, hr⟩ := h.record e he
  rw [hpart, List.getElem?_eq_getElem ht] at hi
  cases hi
  exact ⟨e, he, hd ▸ rfl, _, b, hr, hb, hcourse.id_eq.symm⟩

theorem Run.reported {backend : String} {catalog : Option String} {now : Nat} {log : List Note} {s : System}
    (h : Run (.new backend catalog now) log s) {n : Nat} {status : Sandbox.Status} (ht : s.Tells n status) :
    ∃ i b, s.store.origins i = some b ∧ b.id = status.id ∧
      ∃ e ∈ chronicle i log, e.strand.call = n ∧ e.deed.told? = some status := by
  obtain ⟨id, hr⟩ | ⟨filter, statuses, hr, hs⟩ := ht
  · cases h.orderly.course (System.result?_eq_some.mp hr) with
    | status hes hc =>
      cases hc with
      | @told i b hb hid _ ds hcourse =>
        obtain ⟨e, he, hi, hd⟩ := mem_of_map_entry hes (List.mem_append_left _ hcourse.reported)
        obtain ⟨he, hn⟩ := mem_account.mp he
        exact ⟨i, b, hb, hcourse.id_eq.symm, e, mem_chronicle.mpr ⟨he, hi⟩, hn, hd ▸ rfl⟩
  · generalize hns : account n log = ns
    cases hns ▸ h.orderly.course (System.result?_eq_some.mp hr) with
    | list hc =>
    cases hc with
    | gathered hrounds hi hd =>
      obtain ⟨hs, -⟩ := List.mem_filter.mp hs
      obtain ⟨report, hreport, rfl⟩ := List.mem_filterMap.mp hs
      obtain ⟨e, he, hd, i, b, hi, hb, hid⟩ := hrounds.reported hreport
      obtain ⟨he, hn⟩ := mem_account.mp (hns ▸ List.mem_append_left _ he)
      exact ⟨i, b, hb, hid, e, mem_chronicle.mpr ⟨he, hi⟩, hn, hd⟩

end PodMachines.Pods
