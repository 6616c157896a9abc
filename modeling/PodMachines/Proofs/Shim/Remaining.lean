import PodMachines.Proofs.Backend.Creating
import PodMachines.Proofs.Pods.Boot
import PodMachines.Proofs.Pods.Failing
import PodMachines.Proofs.Shim.Errand
import PodMachines.Proofs.Shim.Hearing

/-! What is left of the work for a create. Main statement: what was asked for it, with the replies, is how the work for
    its sandbox begins; and what is left of that is what is ahead of it where it stands. -/

namespace PodMachines
open Backend Program

namespace Pods

theorem Creation.gathers_eq {backend : String} {o : Origins} {spec : Sandbox.Spec} {suffix : UInt32}
    {p : Point (.create spec suffix)} {es : List Entry} (h : Creation backend o spec suffix p es) :
    (⟨.create spec suffix, p⟩ : Running).gathers = false := by
  cases h <;> rfl

theorem heard_provided (vm : Machine.Spec) (machine : Machine.Handle) (ds more : List Deed) :
    (entries none (provided vm machine ++ ds ++ more)).filterMap (fun e => e.2.heard?) =
      (⟨.backend (.provision vm), .ok machine⟩ :: ds.filterMap Deed.heard?) ++ more.filterMap Deed.heard? := by
  rw [entries, List.filterMap_map, List.filterMap_append, List.filterMap_append]
  rfl

theorem Run.forPod_of_asks {backend : String} {catalog : Option String} {now : Nat} {log : List Note} {s : System}
    (h : Run (.new backend catalog now) log s) {n : Nat} {spec : Sandbox.Spec} {suffix : UInt32}
    {p : Point (.create spec suffix)} (hp : s.calls[n]? = some ⟨.create spec suffix, p⟩) {i : Option Nat}
    {vm : Machine.Spec} (hvm : (i, Deed.asks (.backend (.provision vm))) ∈ (account n log).map Note.entry) :
    ∃ image, vm = .forPod spec.nspace spec.name image suffix := by
  have hall := h.call_induct (Q := fun ns q => ∀ spec suffix, q.call = .create spec suffix → ∀ i vm,
    (i, Deed.asks (.backend (.provision vm))) ∈ ns.map Note.entry →
      ∃ image, vm = .forPod spec.nspace spec.name image suffix) (fun c spec suffix _ i vm hvm => nomatch hvm) ?_ hp
  · exact hall spec suffix rfl i vm hvm
  intro backend me st st' q r ds ns hpace ih spec suffix hcall i vm hvm
  rw [List.map_append, List.mem_append] at hvm
  obtain hvm | hvm := hvm
  · exact ih spec suffix (hpace.may.1 ▸ hcall) i vm hvm
  · obtain ⟨e, he, hentry⟩ := List.mem_map.mp hvm
    obtain ⟨d, hd, rfl⟩ := List.mem_map.mp he
    cases hentry
    obtain ⟨spec', suffix', rfl, hforPod⟩ := hpace.of_asks_provision hd
    cases hpace.may.1.symm.trans hcall
    exact ⟨_, hforPod⟩

end Pods

namespace Tooled
variable [Doc.Parsers]

/-- The work that is ahead of a create. -/
def ahead (b : Tooled) (k : Agent.Connector) (s : Pods.Store) {spec : Sandbox.Spec} {suffix : UInt32} :
    Pods.Point (.create spec suffix) → Work (Except Failure String)
  | .starting => b.creation k (.forPod spec.nspace spec.name (if s.imageBoot then spec.bootImage else none) suffix)
  | .provisioning vm => b.creation k vm
  | .addressing machine => b.addressing k machine
  | .connecting machine address => b.connecting k machine address
  | .discarding machine why => b.discarding machine why
  | .entering (.enroll id _) | .inside (.enroll id _) => .done (.ok id)
  | .finished result => .done result
  -- A create stands nowhere else.
  | _ => .crash ""

/-- The work that is ahead of a create once it is answered. -/
def onward (b : Tooled) (k : Agent.Connector) (me : Pods.Strand) (s : Pods.Store) {spec : Sandbox.Spec}
    {suffix : UInt32} (p : Pods.Point (.create spec suffix)) (request : Pods.Request) (a : request.Answer) :
    Work (Except Failure String) :=
  (p.answer b.backend.name me s request a).elim (.crash "") fun next => b.ahead k next.2 next.1

end Tooled

namespace Rig

def Order.call? : Order → Option Nat
  | .strand me _ => some me.call
  | .search .. => none

/-- The tool calls of the work that was begun for a call, in order. -/
def callsFor (n : Nat) (errands : List Errand) : List (Command × Except String Ended) :=
  (errands.filter (·.order.call? = some n)).flatMap fun e => toolCalls e.talk

/-- All that was asked for a call, with the replies. -/
def talkFor (n : Nat) (errands : List Errand) : Talk Ask Ask.Reply :=
  (errands.filter (·.order.call? = some n)).flatMap Errand.talk

theorem toolCalls_talkFor (n : Nat) (errands : List Errand) : toolCalls (talkFor n errands) = callsFor n errands :=
  List.filterMap_flatMap

/-! ### What was begun for a create -/

section
variable {α : Type} {backend : Backend} {k : Agent.Connector} {now : Nat} {images : Option Images} {t u : Rig α}
  {log more : List Pods.Note} {n : Nat} {spec : Sandbox.Spec} {suffix : UInt32} {p : Pods.Point (.create spec suffix)}

theorem Run.part_eq_zero (h : Run (.new backend k now images) log t) : ∀ e ∈ t.errands, ∀ me request,
    e.order = .strand me request → ∃ (c : Pods.Call) (p : Pods.Point c), t.shim.pods.calls[me.call]? = some ⟨c, p⟩ ∧
      ∀ spec suffix, c = .create spec suffix → me.part = 0 := by
  refine Run.induct (P := fun _ (t : Rig α) => ∀ e ∈ t.errands, ∀ me request, e.order = .strand me request →
    ∃ (c : Pods.Call) (p : Pods.Point c), t.shim.pods.calls[me.call]? = some ⟨c, p⟩ ∧
      ∀ spec suffix, c = .create spec suffix → me.part = 0) ?_ ?_ h
  · exact fun e he => absurd he List.not_mem_nil
  · intro log notes t u hrun ih hg e he me request horder
    obtain ⟨e₀, he₀, heq⟩ | ⟨hdue, hshim⟩ := hg.ordered he
    · obtain ⟨c, p, hp, hpart⟩ := ih e₀ he₀ me request (heq.trans horder)
      obtain ⟨p', hp'⟩ := hg.call_kept hp
      exact ⟨c, p', hp', hpart⟩
    · rw [horder] at hdue
      obtain ⟨c, p, hp, -⟩ := (asks_of_due hdue).call
      refine ⟨c, p, hshim ▸ hp, ?_⟩
      rintro spec suffix rfl
      exact Pods.System.part_eq_zero hp (hrun.pods.creation hp).gathers_eq (asks_of_due hdue).2

theorem Run.filter_call? (h : Run (.new backend k now images) log t)
    (hp : t.shim.pods.calls[n]? = some ⟨.create spec suffix, p⟩) :
    t.errands.filter (·.order.call? = some n) = mine ⟨n, 0⟩ t.errands := by
  refine List.filter_congr fun e he => decide_eq_decide.mpr ?_
  cases horder : e.order with
  | search m reference => exact iff_of_false nofun nofun
  | strand me request =>
    obtain ⟨c, p', hp', hpart⟩ := h.part_eq_zero e he me request horder
    obtain ⟨call, part⟩ := me
    constructor
    · rintro ⟨⟩
      cases hp.symm.trans hp'
      obtain rfl : part = 0 := hpart spec suffix rfl
      rfl
    · rintro ⟨⟩
      rfl

theorem Run.heard_eq (h : Run (.new backend k now images) log t)
    (hp : t.shim.pods.calls[n]? = some ⟨.create spec suffix, p⟩) : Pods.heard ⟨n, 0⟩ log =
      ((Pods.account n log).map Pods.Note.entry).filterMap fun e => e.2.heard? := by
  rw [Pods.heard, Pods.account, List.filterMap_map, List.filterMap_filter]
  refine List.filterMap_congr fun e he => ?_
  by_cases hcall : e.strand.call = n
  · simp only [hcall, decide_true, if_true, Function.comp_apply, Pods.Note.entry]
    rcases hheard : e.deed.heard? with _ | x
    · exact ite_self _
    · -- Who has heard something has had work done for it.
      have hmem : x ∈ Pods.heard e.strand log := List.mem_filterMap.mpr ⟨e, he, (if_pos rfl).trans hheard⟩
      obtain ⟨errand, herrand, talk, rfl, -⟩ := (h.attended rfl e.strand).came x hmem
      obtain ⟨c, p', hp', hpart⟩ := h.part_eq_zero _ (List.mem_filter.mp herrand).1 e.strand x.1 rfl
      rw [hcall] at hp'
      cases hp.symm.trans hp'
      refine if_pos ?_
      rw [← hcall, ← hpart spec suffix rfl]
  · rw [if_neg (fun heq => hcall (congrArg Pods.Strand.call heq)), if_neg (by simpa using hcall)]

theorem Run.mem_of_crash (h : Run t more u) {e : Errand} (he : e ∈ t.errands) {why : String}
    (hl : e.left = Program.crash why) : e ∈ u.errands := by
  refine Run.induct (P := fun _ u => e ∈ u.errands) he ?_ h
  intro log notes s u _ ih hg
  -- Only work that asks, or that is done, is replaced at a step.
  cases hg with
  | shim hf hm => exact ih
  | begin hd hb => exact List.mem_append_left _ ih
  | reply hi hx reply =>
    refine mem_set_of_ne hi ih ?_
    rintro rfl
    cases hl.symm.trans hx
  | tell hi ho hx hm =>
    refine mem_set_of_ne hi ih ?_
    rintro rfl
    cases hl.symm.trans hx

end

variable {α : Type} {b : Tooled} {k : Agent.Connector} {now : Nat} {images : Option Images} {backend : String}
  {o : Pods.Origins} {spec : Sandbox.Spec} {suffix : UInt32} {p : Pods.Point (.create spec suffix)}
  {es : List Pods.Entry} {me : Pods.Strand}

theorem exists_of_forall₂_append {β γ : Type} {related : β → γ → Prop} {l : List β} {l₁ l₂ : List γ}
    (h : List.Forall₂ related l (l₁ ++ l₂)) :
    ∃ first last, l = first ++ last ∧ List.Forall₂ related first l₁ ∧ List.Forall₂ related last l₂ :=
  ⟨_, _, (List.take_append_drop l₁.length l).symm, List.forall₂_take_append l l₁ l₂ h,
    List.forall₂_drop_append l l₁ l₂ h⟩

theorem Errand.Came.leads {first : Rig α} {e : Errand} {x : Pods.Answered} (h : e.Came first me x) :
    (first.work (.strand me x.1)).Leads e.talk (.done x.2) := by
  obtain ⟨talk, rfl, hleads⟩ := h
  exact hleads

variable [Doc.Parsers]

/-! ### What is ahead of it -/

theorem ahead_of_asks {t : Rig α} (hb : t.backend = b.backend) (hk : t.connector = k)
    (hc : Pods.Creation backend o spec suffix p es) {s : Pods.Store} {request : Pods.Request}
    (hr : p.request? me s = some request) :
    b.ahead k s p = (t.work (.strand me request)).bind (b.onward k me s p request) := by
  cases hc with
  | provisioning vm =>
    cases hr
    rw [work, hb]
    refine congrArg (Program.bind (b.backend.serve (.provision vm))) (funext fun made => ?_)
    cases made <;> rfl
  | addressing vm machine =>
    cases hr
    rw [work, hb]
    refine congrArg (Program.bind (b.backend.serve (.addresses machine))) (funext fun found => ?_)
    rcases found with f | (_ | ⟨address, rest⟩) <;> rfl
  | connecting vm machine address rest =>
    cases hr
    rw [work, hk]
    refine congrArg (Program.bind (k.connect address)) (funext fun dialed => ?_)
    cases dialed <;> rfl
  | discarding vm h =>
    cases hr
    rw [work, hb]
    rfl
  | _ => cases hr

section
variable {past : List Errand} {vm : Machine.Spec} {machine : Machine.Handle}

theorem leads_connecting {address : Address} {rest : List Address}
    (h : List.Forall₂ (Errand.Came (.new b.backend k now images : Rig α) me) past
      [⟨.backend (.provision vm), .ok machine⟩, ⟨.backend (.addresses machine), .ok (address :: rest)⟩]) :
    (b.creation k vm).Leads (past.flatMap Errand.talk) (b.connecting k machine address) := by
  obtain _ | ⟨hmade, _ | ⟨hfound, _ | _⟩⟩ := h
  rw [List.flatMap_cons, List.flatMap_singleton]
  exact (hmade.leads.bind (b.provisioned k)).trans (hfound.leads.bind (b.addressed k machine))

theorem leads_connected {address : Address} {rest : List Address} {dialed : Except Failure Connection}
    (h : List.Forall₂ (Errand.Came (.new b.backend k now images : Rig α) me) past
      [⟨.backend (.provision vm), .ok machine⟩, ⟨.backend (.addresses machine), .ok (address :: rest)⟩,
        ⟨.connect address, dialed⟩]) :
    (b.creation k vm).Leads (past.flatMap Errand.talk) (b.connected machine address dialed) := by
  have h : List.Forall₂ (Errand.Came _ _) past ([_, _] ++ [_]) := h
  obtain ⟨first, last, rfl, hfirst, hlast⟩ := exists_of_forall₂_append h
  obtain _ | ⟨hdialed, _ | _⟩ := hlast
  rw [List.flatMap_append, List.flatMap_singleton]
  exact (leads_connecting hfirst).trans (hdialed.leads.bind (b.connected machine address))

theorem leads_lost {ds : List Pods.Deed} {why : Failure} (hlost : Pods.Lost machine ds why)
    (h : List.Forall₂ (Errand.Came (.new b.backend k now images : Rig α) me) past
      (⟨.backend (.provision vm), .ok machine⟩ :: ds.filterMap Pods.Deed.heard?)) :
    (b.creation k vm).Leads (past.flatMap Errand.talk) (b.discarding machine why) := by
  cases hlost with
  | unaddressed found hw =>
    obtain _ | ⟨hmade, _ | ⟨hfound, _ | _⟩⟩ := h
    have hleads := (hmade.leads.bind (b.provisioned k)).trans (hfound.leads.bind (b.addressed k machine))
    rw [List.flatMap_cons, List.flatMap_singleton]
    obtain ⟨rfl, rfl⟩ | ⟨f, rfl, rfl⟩ := hw <;> exact hleads
  | unconnected address rest f => exact leads_connected h

/-- What was asked for a create, and what came of it, has led to the work that is ahead of it. -/
theorem leads_ahead (hc : Pods.Creation b.backend.name o spec suffix p es)
    (hnamed : ∀ vm, (none, Pods.Deed.asks (.backend (.provision vm))) ∈ es →
      ∃ image, vm = .forPod spec.nspace spec.name image suffix)
    (hpast : List.Forall₂ (Errand.Came (.new b.backend k now images : Rig α) me) past
      (es.filterMap fun e => e.2.heard?)) (s : Pods.Store) : ∃ image,
      (b.creation k (.forPod spec.nspace spec.name image suffix)).Leads (past.flatMap Errand.talk) (b.ahead k s p) := by
  cases hc with
  | starting =>
    cases hpast
    exact ⟨_, .rest⟩
  | provisioning vm =>
    obtain ⟨image, rfl⟩ := hnamed _ List.mem_cons_self
    cases hpast
    exact ⟨image, .rest⟩
  | unprovisioned vm f =>
    obtain ⟨image, rfl⟩ := hnamed _ List.mem_cons_self
    have hpast : List.Forall₂ (Errand.Came _ _) past [⟨.backend (.provision _), .error f⟩] := hpast
    obtain _ | ⟨hmade, _ | _⟩ := hpast
    rw [List.flatMap_singleton]
    exact ⟨image, hmade.leads.bind (b.provisioned k)⟩
  | addressing vm machine =>
    obtain ⟨image, rfl⟩ := hnamed _ List.mem_cons_self
    have hpast : List.Forall₂ (Errand.Came _ _) past [⟨.backend (.provision _), .ok machine⟩] := hpast
    obtain _ | ⟨hmade, _ | _⟩ := hpast
    rw [List.flatMap_singleton]
    exact ⟨image, hmade.leads.bind (b.provisioned k)⟩
  | connecting vm machine address rest =>
    obtain ⟨image, rfl⟩ := hnamed _ List.mem_cons_self
    exact ⟨image, leads_connecting hpast⟩
  | @discarding vm machine ds why hlost =>
    obtain ⟨image, rfl⟩ := hnamed _ List.mem_cons_self
    rw [Pods.heard_provided, show [_].filterMap Pods.Deed.heard? = [] from rfl, List.append_nil] at hpast
    exact ⟨image, leads_lost hlost hpast⟩
  | @discarded vm machine ds why hlost a =>
    obtain ⟨image, rfl⟩ := hnamed _ List.mem_cons_self
    rw [Pods.heard_provided] at hpast
    obtain ⟨first, last, rfl, hfirst, hlast⟩ := exists_of_forall₂_append hpast
    obtain _ | ⟨hended, _ | _⟩ := hlast
    have hends : (b.discarding machine why).Leads _ (.done (.error why)) := hended.leads.bind _
    rw [List.flatMap_append, List.flatMap_singleton]
    exact ⟨image, (leads_lost hlost hfirst).trans hends⟩
  | connected vm rest hi | enrolling vm rest hi | enrolled vm rest hi =>
    obtain ⟨image, rfl⟩ := hnamed _ List.mem_cons_self
    exact ⟨image, leads_connected hpast⟩

end

/-! ### Where a create stands -/

section
variable {t : Rig α} {log : List Pods.Note} {n : Nat}

theorem Run.attended_create (h : Run (.new b.backend k now images) log t)
    (hp : t.shim.pods.calls[n]? = some ⟨.create spec suffix, p⟩) : ∃ es,
    Pods.Creation b.backend.name t.shim.pods.store.origins spec suffix p es ∧
      (∀ vm, (none, Pods.Deed.asks (.backend (.provision vm))) ∈ es →
        ∃ image, vm = .forPod spec.nspace spec.name image suffix) ∧
      Attended (.new b.backend k now images : Rig α) ⟨n, 0⟩ (mine ⟨n, 0⟩ t.errands)
        (es.filterMap fun e => e.2.heard?) := by
  have hattended := h.attended rfl ⟨n, 0⟩
  rw [h.heard_eq hp] at hattended
  exact ⟨_, h.pods.creation hp, fun vm hvm => h.pods.forPod_of_asks hp hvm, hattended⟩

/-- What is left of the work for a create: all that is ahead of it while none is under way, else what is left of that
    and then what is ahead. -/
inductive Remains (b : Tooled) (k : Agent.Connector) (t : Rig α) (n : Nat) (p : Pods.Point (.create spec suffix)) :
    Work (Except Failure String) → Prop
  | idle (h : t.busy (.inl ⟨n, 0⟩) = false) : Remains b k t n p (b.ahead k t.shim.pods.store p)
  | busy {i : Nat} {request : Pods.Request} {talk : Talk Ask Ask.Reply} {left : Work request.Answer}
      (hi : t.errands[i]? = some ⟨.strand ⟨n, 0⟩ request, talk, left, false⟩)
      (hr : p.request? ⟨n, 0⟩ t.shim.pods.store = some request) :
      Remains b k t n p (left.bind (b.onward k ⟨n, 0⟩ t.shim.pods.store p request))

/-- What was asked for a create is how the work for its sandbox begins. -/
theorem Run.remains (h : Run (.new b.backend k now images) log t)
    (hp : t.shim.pods.calls[n]? = some ⟨.create spec suffix, p⟩) : ∃ image left,
      (b.creation k (.forPod spec.nspace spec.name image suffix)).Leads (talkFor n t.errands) left ∧
        Remains b k t n p left := by
  obtain ⟨es, hc, hnamed, hattended⟩ := h.attended_create hp
  rw [talkFor, h.filter_call? hp]
  generalize hmine : mine ⟨n, 0⟩ t.errands = errands at hattended
  cases hattended with
  | idle hpast =>
    obtain ⟨image, hleads⟩ := leads_ahead hc hnamed hpast t.shim.pods.store
    refine ⟨image, _, hleads, .idle (busy_eq_false.mpr fun e he hopen hgiver => ?_)⟩
    have hmem : e ∈ errands := hmine ▸ List.mem_filter.mpr ⟨he, decide_eq_true hgiver⟩
    obtain ⟨x, talk, rfl, -⟩ := (Errand.Came.of_mem hpast).1 e hmem
    cases hopen
  | @busy past _ request talk left hpast hl =>
    obtain ⟨image, hleads⟩ := leads_ahead hc hnamed hpast t.shim.pods.store
    have hmem : (⟨.strand ⟨n, 0⟩ request, talk, left, false⟩ : Errand) ∈ mine ⟨n, 0⟩ t.errands :=
      hmine ▸ List.mem_append_right _ (List.mem_singleton_self _)
    obtain ⟨i, hi⟩ := List.getElem?_of_mem (List.mem_filter.mp hmem).1
    obtain ⟨c, p', hp', hr⟩ := ((h.tended rfl).asks hi rfl rfl).call
    cases hp.symm.trans hp'
    have hahead := ahead_of_asks (b := b) (k := k) (t := (.new b.backend k now images : Rig α)) rfl rfl hc hr
    rw [hahead] at hleads
    rw [List.flatMap_append, List.flatMap_singleton]
    exact ⟨image, _, hleads.trans (hl.bind _), .busy hi hr⟩

/-! ### Where it breaks down -/

theorem ahead_ne_crash (hc : Pods.Creation backend o spec suffix p es) (s : Pods.Store) (why : String) :
    b.ahead k s p ≠ .crash why := by
  cases hc with
  | connecting vm machine address rest => cases k <;> exact nofun
  | _ => cases b <;> exact nofun

theorem onward_ne_crash (hc : Pods.Creation backend o spec suffix p es) {s : Pods.Store} {request : Pods.Request}
    (hr : p.request? me s = some request) (a : request.Answer) (why : String) :
    b.onward k me s p request a ≠ .crash why := by
  cases hc with
  | provisioning vm =>
    cases hr
    cases a <;> cases b <;> exact nofun
  | addressing vm machine =>
    cases hr
    rcases a with f | (_ | ⟨address, rest⟩)
    · cases b <;> exact nofun
    · cases b <;> exact nofun
    · cases k <;> exact nofun
  | connecting vm machine address rest =>
    cases hr
    cases a <;> cases b <;> exact nofun
  | discarding vm h =>
    cases hr
    exact nofun
  | _ => cases hr

/-- Whether work for a call has broken down. -/
def Broken (n : Nat) (errands : List Errand) : Prop :=
  ∃ e ∈ errands, e.order.call? = some n ∧ ∃ why, e.left = Program.crash why

instance {β : Type} (left : Work β) : Decidable (∃ why, left = .crash why) :=
  match left with
  | Program.done _ => .isFalse nofun
  | Program.crash why => .isTrue ⟨why, rfl⟩
  | Program.ask .. => .isFalse nofun

instance (n : Nat) (errands : List Errand) : Decidable (Broken n errands) :=
  inferInstanceAs (Decidable (∃ e ∈ errands, e.order.call? = some n ∧ ∃ why, e.left = Program.crash why))

/-- Work for a create that has broken down is work that its one strand still waits for. -/
theorem Run.waits_of_crash (h : Run (.new b.backend k now images) log t)
    (hp : t.shim.pods.calls[n]? = some ⟨.create spec suffix, p⟩) {e : Errand} (he : e ∈ t.errands)
    (hn : e.order.call? = some n) {why : String} (hl : e.left = Program.crash why) :
    e.order.giver = .inl ⟨n, 0⟩ ∧ e.told = false := by
  obtain ⟨es, -, -, hattended⟩ := h.attended_create hp
  obtain ⟨i, hi⟩ := List.getElem?_of_mem he
  have hmine : e ∈ mine ⟨n, 0⟩ t.errands := by
    rw [← h.filter_call? hp]
    exact List.mem_filter.mpr ⟨he, decide_eq_true hn⟩
  have hopen : ∀ a, e.left ≠ Program.done a := fun a h => nomatch hl.symm.trans h
  obtain ⟨-, request, talk, left, -, rfl, -⟩ :=
    hattended.last hi (of_decide_eq_true (List.mem_filter.mp hmine).2) (Errand.not_came_of_left hopen)
  exact ⟨rfl, rfl⟩

theorem Run.left_of_crash (h : Run (.new b.backend k now images) log t)
    (hp : t.shim.pods.calls[n]? = some ⟨.create spec suffix, p⟩) {left : Work (Except Failure String)}
    (hs : Remains b k t n p left) {e : Errand} (he : e ∈ t.errands) (hn : e.order.call? = some n) {why : String}
    (hl : e.left = Program.crash why) : left = .crash why := by
  obtain ⟨hgiver, hopen⟩ := h.waits_of_crash hp he hn hl
  cases hs with
  | idle hidle => exact absurd hgiver (busy_eq_false.mp hidle e he hopen)
  | busy hj hr =>
    -- A strand has no two works under way.
    obtain ⟨i, hi⟩ := List.getElem?_of_mem he
    obtain rfl := (h.tended rfl).apart hi hj hopen rfl hgiver
    cases hi.symm.trans hj
    exact congrArg (Program.bind · _) hl

/-- Work for a create has broken down exactly if all that is left of the work for its sandbox is that. -/
theorem Run.broken_iff (h : Run (.new b.backend k now images) log t)
    (hp : t.shim.pods.calls[n]? = some ⟨.create spec suffix, p⟩) {left : Work (Except Failure String)}
    (hs : Remains b k t n p left) : Broken n t.errands ↔ ∃ why, left = .crash why := by
  constructor
  · rintro ⟨e, he, hn, why, hl⟩
    exact ⟨why, h.left_of_crash hp hs he hn hl⟩
  · rintro ⟨why, rfl⟩
    have hc := h.pods.creation hp
    generalize hleft : (Program.crash why : Work (Except Failure String)) = left at hs
    cases hs with
    | idle hidle => exact absurd hleft.symm (ahead_ne_crash hc _ why)
    | @busy i request talk left hi hr =>
      cases left with
      | done a => exact absurd hleft.symm (onward_ne_crash hc hr a why)
      | crash why' => exact ⟨_, List.mem_of_getElem? hi, rfl, why', rfl⟩
      | ask q next => cases hleft

theorem Remains.ended {result : Except Failure String} {left : Work (Except Failure String)}
    (hs : Remains b k t n (.finished result : Pods.Point (.create spec suffix)) left) : left = .done result := by
  cases hs with
  | idle hidle => rfl
  | busy hi hr => cases hr

end
end Rig
end PodMachines
