import PodMachines.Proofs.Pods.Gather

/-! Who waits for whom. A strand stands at one lock at a time, be it the guard of the directory or a record's lock, and
    has no other one then. Main statement: whoever is in the way of another has nobody in its own way and can go on, so
    that while a call is in progress some strand can. -/

namespace PodMachines.Pods

/-! ### Where strands stand -/

/-- The record at whose lock a check stands, with the lock or without it. -/
def Check.place? : Check → Option Nat
  | .queued i | .refreshing i => some i
  | _ => none

/-- The record whose lock a check goes on with. -/
def Check.seeks? : Check → Option Nat
  | .arriving i | .queued i => some i
  | _ => none

/-- The record at whose lock a strand of a call stands, with the lock or without it. -/
def Running.place? (p : Running) (me : Strand) : Option Nat :=
  match p.point with
  | .queued i | .destroying i | .closing i => some i
  | point => (point.check? me).bind Check.place?

/-- The record whose lock a strand of a call goes on with. -/
def Running.seeks? (p : Running) (me : Strand) : Option Nat :=
  match p.point with
  | .arriving i | .queued i => some i
  | point => (point.check? me).bind Check.seeks?

/-- Whether a strand of a call is there and has not come to its end. -/
def Running.lives (p : Running) (me : Strand) : Bool :=
  match p.point with
  | .finished _ => false
  | .gathering checks => checks[me.part]?.any fun check => check.report?.isNone
  | _ => true

namespace System
variable (s : System)

/-- The record at whose lock a strand stands. -/
def place? (me : Strand) : Option Nat :=
  s.calls[me.call]?.bind (·.place? me)

/-- A strand is in the directory. -/
def Visits (me : Strand) : Prop :=
  ∃ p, s.calls[me.call]? = some p ∧ p.visits = true

/-- A strand stands before the directory. -/
def Enters (me : Strand) : Prop :=
  ∃ c v, s.calls[me.call]? = some ⟨c, .entering v⟩

/-- A strand has a record's lock. -/
def Holds (me : Strand) (i : Nat) : Prop :=
  ∃ r h, s.store.records[i]? = some r ∧ r.lock.holder = some h ∧ s.Same h me

/-- A strand goes on with a record's lock only, which it does not have. -/
def Wants (me : Strand) (i : Nat) : Prop :=
  (∃ p, s.calls[me.call]? = some p ∧ p.seeks? me = some i) ∧ ¬s.Holds me i

/-- One strand has what another one waits for. -/
def Blocks (k me : Strand) : Prop :=
  (s.Visits k ∧ s.Enters me) ∨ ∃ i, s.Holds k i ∧ s.Wants me i

/-- A strand goes on by itself, or asks others and goes on with any answer. -/
def Awake (me : Strand) : Prop :=
  (∃ t, s.advance me = some t) ∨ ∃ request, s.request? me = some request ∧ ∀ a, ∃ t, s.answer me request a = some t

/-- A strand can go on, under one of its names. -/
def CanGo (me : Strand) : Prop :=
  ∃ k, s.Same k me ∧ s.Awake k

/-- A strand is there and has not come to its end. -/
def Lives (me : Strand) : Prop :=
  ∃ p, s.calls[me.call]? = some p ∧ p.lives me = true

/-- The strands at a record's lock stand there, and are different ones. -/
structure Lined : Prop where
  here : ∀ {i : Nat} {r : Record} {h : Strand}, s.store.records[i]? = some r → h ∈ r.lock.strands → s.place? h = some i
  apart : ∀ {i : Nat} {r : Record}, s.store.records[i]? = some r → r.lock.strands.Pairwise fun a b => ¬s.Same a b

end System

/-! ### What a step does to the locks -/

theorem Lock.Fair.strands_request {l : Lock} {n : Nat} (h : l.Fair n) (me : Strand) :
    (l.request me).strands = l.strands ++ [me] := by
  obtain ⟨holder, waiting⟩ := l
  cases holder with
  | none =>
    obtain rfl : waiting = [] := h.served rfl
    rfl
  | some other => rfl

theorem Lock.Fair.strands_release {l : Lock} {n : Nat} (h : l.Fair n) : l.release.strands = l.strands.tail := by
  obtain ⟨holder, waiting⟩ := l
  cases holder with
  | none =>
    obtain rfl : waiting = [] := h.served rfl
    rfl
  | some other => cases waiting <;> rfl

/-- What a step of a strand does to the locks, and at which of them it stands before and after it: it stays where it
    is, makes a record, asks for a lock, or lets go the one that it has. -/
inductive Stance (me : Strand) (s : Store) (p q : Running) (t : Store) : Prop
  | away (ht : t.records = s.records) (hq : q.place? me = p.place? me)
  | born {r : Record} (hl : r.lock = .free) (ht : t.records = s.records ++ [r]) (hq : q.place? me = p.place? me)
  | ask {j : Nat} (ht : t = s.requestLock j me) (hp : p.place? me = none) (hq : q.place? me = some j)
  | letGo {j : Nat} {r r' : Record} (hr : s.records[j]? = some r) (hl : r'.lock = r.lock.release)
      (ht : t.records = s.records.set j r') (hw : r.lock.holder = some me ∨ ∃ x, p.work? me = some (j, x))
      (hp : p.place? me = some j)

theorem place?_ofCheck (id : String) (check : Check) (me : Strand) :
    Running.place? ⟨.status id, Point.ofCheck id check⟩ me = check.place? := by
  cases check with
  | settled status => cases status <;> rfl
  | _ => rfl

theorem place?_ofChecks (filter : Sandbox.Filter) (checks : List Check) (me : Strand) :
    Running.place? ⟨.list filter, Point.ofChecks filter checks⟩ me = checks[me.part]?.bind Check.place? := by
  obtain ⟨reports, rfl, h⟩ | ⟨-, h⟩ := Point.ofChecks_cases filter checks
  · rw [h, List.getElem?_map]
    cases reports[me.part]? <;> rfl
  · rw [h]
    rfl

theorem place?_arriving (filter : Sandbox.Filter) (records : List Nat) (me : Strand) :
    Running.place? ⟨.list filter, Point.ofChecks filter (records.map .arriving)⟩ me = none := by
  rw [place?_ofChecks, List.getElem?_map]
  cases records[me.part]? <;> rfl

section
variable {backend : String} {me k : Strand} {s t : Store} {p q : Running} {ds : List Deed}

theorem Check.Pace.stance {check next : Check} (h : check.Pace me s ds next t) (hp : p.place? me = check.place?)
    (hw : p.work? me = check.work?) (hq : q.place? me = next.place?) : Stance me s p q t := by
  cases h with
  | arrive j => exact .ask rfl hp hq
  | refuse hr hl hd => exact .letGo hr rfl rfl (.inl hl) hp
  | fresh hr hl hd hf => exact .letGo hr (Record.downgraded_released_lock _) rfl (.inl hl) hp
  | query hr hl hd hf => exact .away rfl (hq.trans hp.symm)
  | @sample i r hr x =>
    exact .letGo hr (Record.downgraded_released_lock (r.sampled x s.now)) rfl (.inr ⟨_, hw⟩) hp
  | fail hr f => exact .letGo hr (Record.downgraded_released_lock _) rfl (.inr ⟨_, hw⟩) hp

theorem Pace.stance (h : Pace backend me s p ds q t) : Stance me s p q t := by
  cases h with
  | connected agent => exact .born rfl rfl rfl
  | forget id i =>
    refine .away ?_ rfl
    split <;> rfl
  | listed => exact .away rfl (place?_arriving _ _ _)
  | arrive j => exact .ask rfl rfl rfl
  | stopRefused hr hl hd => exact .letGo hr rfl rfl (.inl hl) rfl
  | stopped hr hl hd => exact .letGo hr rfl rfl (.inl hl) rfl
  | removeRefused hr hl hd => exact .letGo hr rfl rfl (.inl hl) rfl
  | undestroyed hr f => exact .letGo hr rfl rfl (.inr ⟨_, rfl⟩) rfl
  | closed hr => exact .letGo hr rfl rfl (.inr ⟨_, rfl⟩) rfl
  | check h => exact h.stance rfl rfl (place?_ofCheck _ _ _)
  | gather hc h =>
    have hl := (List.getElem?_eq_some_iff.mp hc).1
    refine h.stance ?_ ?_ ?_
    · simp [Running.place?, Point.check?, hc]
    · simp [Running.work?, Point.check?, hc]
    · rw [place?_ofChecks, List.getElem?_set_self hl]
      rfl
  | _ => exact .away rfl rfl

theorem Pace.place?_of_gathers (h : Pace backend me s p ds q t) (hg : p.gathers = true) (hk : k.part ≠ me.part) :
    q.place? k = p.place? k := by
  cases h with
  | gather hc h =>
    rw [place?_ofChecks, List.getElem?_set_ne (Ne.symm hk)]
    rfl
  | _ => cases hg

/-- A call that is not a list at its checks has one strand only. -/
theorem Pace.place?_of_single (h : Pace backend me s p ds q t) (hg : p.gathers = false) :
    p.place? k = p.place? me ∧ q.place? k = q.place? me := by
  cases h with
  | gather hc h => cases hg
  | listed => exact ⟨rfl, (place?_arriving _ _ _).trans (place?_arriving _ _ _).symm⟩
  | check h => exact ⟨rfl, (place?_ofCheck _ _ _).trans (place?_ofCheck _ _ _).symm⟩
  | _ => exact ⟨rfl, rfl⟩

theorem Pace.gathers_of_place (h : Pace backend me s p ds q t) (hg : p.gathers = true) {i : Nat}
    (hk : q.place? k = some i) : q.gathers = true := by
  cases h with
  | @gather filter checks check next ds t hc h =>
    obtain ⟨reports, -, hq⟩ | ⟨-, hq⟩ := Point.ofChecks_cases filter (checks.set me.part next)
    · rw [hq] at hk
      cases hk
    · rw [hq]
      rfl
  | _ => cases hg

end

/-! ### The strands at a lock -/

namespace System
variable {s : System} {me k a b : Strand} {p q : Running} {ds : List Deed} {st : Store} {i : Nat} {r : Record}

theorem Same.refl (me : Strand) : s.Same me me :=
  ⟨rfl, fun _ _ _ => rfl⟩

theorem place?_start (c : Call) : (s.start c).place? me = s.place? me := by
  unfold place? start
  rw [List.getElem?_append]
  by_cases hn : me.call < s.calls.length
  · rw [if_pos hn]
  · rw [if_neg hn, List.getElem?_eq_none (Nat.le_of_not_lt hn)]
    cases me.call - s.calls.length with
    | zero => cases c <;> rfl
    | succ n => rfl

theorem place?_of_call (hp : s.calls[me.call]? = some p) (hk : k.call = me.call) : s.place? k = p.place? k := by
  rw [place?, hk, hp]
  rfl

theorem place?_after_of_call (hp : s.calls[me.call]? = some p) (hk : k.call = me.call) :
    (s.after me q st).place? k = q.place? k := by
  rw [place?, after, hk, List.getElem?_set_self (List.getElem?_eq_some_iff.mp hp).1]
  rfl

section
variable (hp : s.calls[me.call]? = some p) (hq : Pace s.backend me s.store p ds q st)
include hp hq

theorem place?_of_same (hs : s.Same k me) :
    s.place? k = p.place? me ∧ (s.after me q st).place? k = q.place? me := by
  rw [place?_of_call hp hs.1, place?_after_of_call hp hs.1]
  cases hg : p.gathers with
  | true =>
    obtain rfl := hs.eq hp hg
    exact ⟨rfl, rfl⟩
  | false => exact hq.place?_of_single hg

theorem place?_of_not_same (hs : ¬s.Same k me) : (s.after me q st).place? k = s.place? k := by
  by_cases hk : k.call = me.call
  · obtain ⟨hg, hpart⟩ := gathers_of_not_same hp hk hs
    rw [place?_of_call hp hk, place?_after_of_call hp hk]
    exact hq.place?_of_gathers hg hpart
  · rw [place?, place?, after, List.getElem?_set_ne (Ne.symm hk)]

/-- Strands that are one after a step were one before it, if one of them is at a lock. -/
theorem Same.before (h : (s.after me q st).Same a b) (hb : (s.after me q st).place? b = some i) : s.Same a b := by
  refine ⟨h.1, fun p' hp' hg => ?_⟩
  by_cases hc : b.call = me.call
  · rw [place?_after_of_call hp hc] at hb
    cases hp.symm.trans (hc ▸ hp')
    refine h.2 q ?_ (hq.gathers_of_place hg hb)
    rw [System.after, hc, List.getElem?_set_self (List.getElem?_eq_some_iff.mp hp).1]
  · exact h.2 p' ((List.getElem?_set_ne (Ne.symm hc)).trans hp') hg

/-- A record whose lock a step leaves as it was still has its strands there, if the strand that goes on stays with
    them. -/
theorem Lined.kept (h : s.Lined) (hr : s.store.records[i]? = some r)
    (hme : p.place? me = some i → q.place? me = some i) :
    (∀ a ∈ r.lock.strands, (s.after me q st).place? a = some i) ∧ r.lock.strands.Pairwise fun a b => ¬s.Same a b := by
  refine ⟨fun a ha => ?_, h.apart hr⟩
  by_cases hs : s.Same a me
  · obtain ⟨hbefore, hafter⟩ := place?_of_same hp hq hs
    exact hafter.trans (hme (hbefore.symm.trans (h.here hr ha)))
  · exact (place?_of_not_same hp hq hs).trans (h.here hr ha)

theorem Lined.after (h : s.Lined) (hc : s.Counted) (hx : s.Exclusive) : (s.after me q st).Lined := by
  suffices key : ∀ {i : Nat} {r : Record}, st.records[i]? = some r →
      (∀ a ∈ r.lock.strands, (s.after me q st).place? a = some i) ∧
        r.lock.strands.Pairwise fun a b => ¬s.Same a b by
    refine ⟨fun hr ha => (key hr).1 _ ha, fun hr => ?_⟩
    exact (key hr).2.imp_of_mem fun ha hb hne hsame => hne (Same.before hp hq hsame ((key hr).1 _ hb))
  intro i r hr
  cases hq.stance with
  | away ht hpl => exact h.kept hp hq (ht ▸ hr) hpl.trans
  | @born new hl ht hpl =>
    rw [ht, List.getElem?_append] at hr
    by_cases hi : i < s.store.records.length
    · rw [if_pos hi] at hr
      exact h.kept hp hq hr hpl.trans
    · rw [if_neg hi] at hr
      obtain rfl := List.mem_singleton.mp (List.mem_of_getElem? hr)
      rw [hl]
      exact ⟨fun a ha => absurd ha List.not_mem_nil, .nil⟩
  | @ask j ht hpn hqj =>
    subst ht
    simp only [Store.requestLock, Store.modify, List.getElem?_modify] at hr
    obtain ⟨old, hold, rfl⟩ := Option.map_eq_some_iff.mp hr
    obtain ⟨hplace, hpair⟩ := h.kept hp hq hold fun hme =>
      absurd (hme.symm.trans hpn) (Option.some_ne_none i)
    by_cases hji : j = i
    · subst hji
      rw [if_pos rfl]
      show (∀ a ∈ (old.lock.request me).strands, _) ∧ (old.lock.request me).strands.Pairwise _
      rw [(hc.fair _ _ hold).strands_request me]
      refine ⟨fun a ha => ?_, List.pairwise_append.mpr ⟨hpair, List.pairwise_singleton .., fun a ha b hb hs => ?_⟩⟩
      · rcases List.mem_append.mp ha with ha | ha
        · exact hplace a ha
        · obtain rfl := List.mem_singleton.mp ha
          exact (place?_of_same hp hq (.refl a)).2.trans hqj
      · -- The strand that asks was at no lock before.
        obtain rfl := List.mem_singleton.mp hb
        cases ((place?_of_same hp hq hs).1.trans hpn).symm.trans (h.here hold ha)
    · rw [if_neg hji]
      exact ⟨hplace, hpair⟩
  | @letGo j old new hold hl ht hw hpj =>
    by_cases hji : j = i
    · subst hji
      rw [ht, List.getElem?_set_self (List.getElem?_eq_some_iff.mp hold).1] at hr
      cases hr
      obtain ⟨x, hholder, hsame⟩ : ∃ x, old.lock.holder = some x ∧ s.Same x me := by
        rcases hw with hl | ⟨x, hw⟩
        · exact ⟨me, hl, .refl me⟩
        · obtain ⟨r, x, hr, hl, hsame⟩ := hx me j x ((work?_of_call hp rfl).trans hw)
          cases hold.symm.trans hr
          exact ⟨x, hl, hsame⟩
      have hstrands : old.lock.strands = x :: old.lock.waiting := by simp [Lock.strands, hholder]
      have hpair := h.apart hold
      rw [hl, (hc.fair _ _ hold).strands_release]
      rw [hstrands] at hpair ⊢
      obtain ⟨hfirst, hrest⟩ := List.pairwise_cons.mp hpair
      refine ⟨fun a ha => ?_, hrest⟩
      have hne : ¬s.Same a me := fun hs => hfirst a ha (hsame.trans hs.symm)
      exact (place?_of_not_same hp hq hne).trans (h.here hold (hstrands ▸ List.mem_cons_of_mem x ha))
    · rw [ht, List.getElem?_set_ne hji] at hr
      exact h.kept hp hq hr fun hme => absurd (Option.some.inj (hpj.symm.trans hme)) hji

end

end System

section
variable {backend : String} {catalog : Option String} {now : Nat} {log : List Note} {s : System} {me k : Strand}
  {i : Nat}

theorem Run.lined (h : Run (.new backend catalog now) log s) : s.Lined := by
  refine Run.induct (P := fun _ s => s.Lined) ?_ ?_ h
  · refine ⟨?_, ?_⟩
    · intro i r h hr
      cases hr
    · intro i r hr
      cases hr
  intro log notes t u hrun ih hg
  cases hg with
  | start c =>
    refine ⟨fun hr ha => (System.place?_start c).trans (ih.here hr ha), fun {i r} hr => ?_⟩
    refine (ih.apart hr).imp_of_mem fun {a b} ha hb hne hsame => hne ⟨hsame.1, fun p hp hg => hsame.2 p ?_ hg⟩
    exact (List.getElem?_append_left (List.getElem?_eq_some_iff.mp hp).1).trans hp
  | pace hp hq => exact ih.after hp hq hrun.counted hrun.exclusive
  | pass milliseconds => exact ⟨ih.here, ih.apart⟩
  | enableImageBoot => exact ⟨ih.here, ih.apart⟩

/-! ### Having a lock -/

theorem Running.place?_congr {p : Running} (hg : p.gathers = false) (k me : Strand) : p.place? k = p.place? me := by
  obtain ⟨c, p⟩ := p
  cases p with
  | gathering checks => cases hg
  | _ => rfl

theorem System.Same.place?_eq (hs : s.Same k me) : s.place? k = s.place? me := by
  cases hp : s.calls[me.call]? with
  | none => rw [System.place?, System.place?, hs.1, hp]; rfl
  | some p =>
    cases hg : p.gathers with
    | true => rw [hs.eq hp hg]
    | false =>
      rw [System.place?_of_call hp hs.1, System.place?_of_call hp rfl]
      exact Running.place?_congr hg k me

theorem Run.place_of_holds (h : Run (.new backend catalog now) log s) (hk : s.Holds me i) : s.place? me = some i := by
  obtain ⟨r, x, hr, hl, hsame⟩ := hk
  rw [← hsame.place?_eq]
  exact h.lined.here hr (by simp [Lock.strands, hl])

theorem Check.place?_of_seeks {check : Check} (hs : check.seeks? = some i) :
    check.place? = none ∨ check.place? = some i := by
  cases check with
  | arriving j => exact .inl rfl
  | queued j => exact .inr hs
  | _ => cases hs

/-- A check at a lock goes on with it only, or works with it. -/
theorem Check.seeks?_of_place {check : Check} (hi : check.place? = some i) :
    check.seeks? = some i ∨ ∃ x, check.work? = some (i, x) := by
  cases check with
  | queued j => exact .inl hi
  | refreshing j =>
    cases hi
    exact .inr ⟨_, rfl⟩
  | _ => cases hi

theorem Running.place?_of_seeks {p : Running} (hs : p.seeks? me = some i) :
    p.place? me = none ∨ p.place? me = some i := by
  obtain ⟨c, p⟩ := p
  cases p with
  | arriving j => exact .inl rfl
  | queued j => exact .inr hs
  | checking check => exact Check.place?_of_seeks hs
  | gathering checks =>
    simp only [seeks?, place?, Point.check?] at hs ⊢
    obtain ⟨check, hc, hs⟩ := Option.bind_eq_some_iff.mp hs
    rw [hc]
    exact Check.place?_of_seeks hs
  | _ => cases hs

theorem Running.seeks?_of_place {p : Running} (hi : p.place? me = some i) :
    p.seeks? me = some i ∨ ∃ x, p.work? me = some (i, x) := by
  obtain ⟨c, p⟩ := p
  cases p with
  | queued j => exact .inl hi
  | destroying j | closing j =>
    cases hi
    exact .inr ⟨_, rfl⟩
  | checking check => exact Check.seeks?_of_place hi
  | gathering checks =>
    simp only [seeks?, place?, work?, Point.check?] at hi ⊢
    obtain ⟨check, hc, hi⟩ := Option.bind_eq_some_iff.mp hi
    rw [hc]
    exact Check.seeks?_of_place hi
  | _ => cases hi

theorem Running.queueing_of_place {p : Running} (hi : p.place? me = some i) : p.queueing i ≠ 0 := by
  have queues {check : Check} (hi : check.place? = some i) : check.queues i = true := by
    cases check <;> cases hi <;> exact decide_eq_true rfl
  obtain ⟨c, p⟩ := p
  cases p with
  | queued j | destroying j | closing j =>
    cases hi
    simp [queueing]
  | checking check =>
    have hq := queues hi
    simp [queueing, hq]
  | gathering checks =>
    obtain ⟨check, hc, hi⟩ := Option.bind_eq_some_iff.mp hi
    exact Nat.ne_of_gt (List.countP_pos_iff.mpr ⟨check, List.mem_of_getElem? hc, queues hi⟩)
  | _ => cases hi

theorem Run.holder_of_place (h : Run (.new backend catalog now) log s) (hi : s.place? me = some i) :
    ∃ r x, s.store.records[i]? = some r ∧ r.lock.holder = some x := by
  obtain ⟨p, hp, hi⟩ := Option.bind_eq_some_iff.mp hi
  have hne := Running.queueing_of_place hi
  obtain ⟨b, hb⟩ := (h.orderly.course hp).known_of_queueing hne
  obtain ⟨r, hr, -⟩ := Option.map_eq_some_iff.mp hb
  refine ⟨r, ?_⟩
  cases hl : r.lock.holder with
  | some x => exact ⟨x, hr, rfl⟩
  | none =>
    have hnone : r.lock.strands.length = 0 := by
      simp [Lock.strands, hl, (h.counted.fair i r hr).served hl]
    rw [h.counted.locks i r hr, List.sum_eq_zero_iff_forall_eq_nat] at hnone
    exact absurd (hnone _ (List.mem_map_of_mem (List.mem_of_getElem? hp))) hne

theorem Run.awake_of_asks (h : Run (.new backend catalog now) log s) {request : Request}
    (hr : s.request? me = some request) : s.Awake me :=
  .inr ⟨request, hr, h.answer_of_asks hr⟩

theorem System.awake_of_advance {c : Call} {p : Point c} (hp : s.calls[me.call]? = some ⟨c, p⟩)
    (h : ∃ next, p.advance me s.store = some next) : s.Awake me := by
  obtain ⟨next, h⟩ := h
  exact .inl ⟨_, System.advance_eq_some hp h⟩

/-- A check goes on by itself or asks others. -/
def Check.Awake (check : Check) (me : Strand) (st : Store) : Prop :=
  (∃ next, check.advance me st = some next) ∨ ∃ request, check.request? st = some request

theorem Check.awake_of_holder {check : Check} {st : Store} {r : Record} (hi : check.place? = some i)
    (hr : st.records[i]? = some r) (hl : r.lock.holder = some me) : check.Awake me st := by
  cases check with
  | queued j =>
    cases hi
    left
    simp only [advance, Store.held?_eq_some.mpr ⟨hr, hl⟩]
    split
    · exact ⟨_, rfl⟩
    · split <;> exact ⟨_, rfl⟩
  | refreshing j =>
    cases hi
    exact .inr ⟨_, Option.map_eq_some_iff.mpr ⟨r, hr, rfl⟩⟩
  | _ => cases hi

theorem Run.awake_of_check (h : Run (.new backend catalog now) log s) {c : Call} {p : Point c}
    (hp : s.calls[me.call]? = some ⟨c, p⟩) {check : Check} (hc : p.check? me = some check)
    (hgo : check.Awake me s.store) : s.Awake me := by
  cases p with
  | checking check' =>
    cases hc
    cases h.orderly.course hp with
    | status hes hcourse =>
      obtain ⟨next, hnext⟩ | ⟨request, hrequest⟩ := hgo
      · exact System.awake_of_advance hp ⟨_, Option.map_eq_some_iff.mpr ⟨next, hnext, rfl⟩⟩
      · exact h.awake_of_asks ((System.request?_of_call hp).trans hrequest)
    | create hes hc | stop hes hc | remove hes hc | list hc | agent hes hc | address hes hc | ids hes hc => cases hc
  | gathering checks =>
    have hat : checks[me.part]? = some check := hc
    obtain ⟨filter, rfl⟩ := h.list_of_gathering hp
    obtain ⟨⟨next, st⟩, hnext⟩ | ⟨request, hrequest⟩ := hgo
    · refine System.awake_of_advance hp ⟨(Point.ofChecks filter (checks.set me.part next), st), ?_⟩
      simp only [Point.advance, hat, hnext, Option.map_some]
    · exact h.awake_of_asks ((System.request?_of_call hp).trans (Option.bind_eq_some_iff.mpr ⟨check, hat, hrequest⟩))
  | _ => cases hc

theorem Run.awake_of_holder (h : Run (.new backend catalog now) log s) {r : Record}
    (hr : s.store.records[i]? = some r) (hl : r.lock.holder = some me) : s.Awake me := by
  obtain ⟨⟨c, p⟩, hp, hi⟩ := Option.bind_eq_some_iff.mp (h.lined.here hr (h := me) (by simp [Lock.strands, hl]))
  cases p with
  | queued j =>
    cases hi
    have hheld := Store.held?_eq_some.mpr ⟨hr, hl⟩
    have hlocked : ∃ next, Point.locked s.store i r c = some next := by
      cases h.orderly.course hp with
      | stop | remove =>
        simp only [Point.locked]
        split <;> exact ⟨_, rfl⟩
      | create hes hc | status hes hc | list hc | agent hes hc | address hes hc | ids hes hc => cases hc
    obtain ⟨next, hnext⟩ := hlocked
    refine System.awake_of_advance hp ⟨next, ?_⟩
    simp only [Point.advance, hheld, hnext]
  | destroying j | closing j =>
    cases hi
    exact h.awake_of_asks ((System.request?_of_call hp).trans (Option.map_eq_some_iff.mpr ⟨r, hr, rfl⟩))
  | checking check => exact h.awake_of_check hp rfl (Check.awake_of_holder hi hr hl)
  | gathering checks =>
    obtain ⟨check, hc, hi⟩ := Option.bind_eq_some_iff.mp hi
    exact h.awake_of_check hp hc (Check.awake_of_holder hi hr hl)
  | _ => cases hi

theorem Run.canGo_of_holds (h : Run (.new backend catalog now) log s) (hk : s.Holds me i) : s.CanGo me := by
  obtain ⟨r, x, hr, hl, hsame⟩ := hk
  exact ⟨x, hsame, h.awake_of_holder hr hl⟩

theorem Run.canGo_of_visits (h : Run (.new backend catalog now) log s) (hv : s.Visits me) : s.CanGo me := by
  obtain ⟨p, hp, hv⟩ := hv
  obtain ⟨t, ht, -⟩ := h.leaves hp hv
  refine ⟨⟨me.call, 0⟩, ⟨rfl, fun p' hp' hg => ?_⟩, .inl ⟨t, ht⟩⟩
  cases hp.symm.trans hp'
  obtain ⟨c, p⟩ := p
  cases p with
  | gathering checks => cases hv
  | _ => cases hg

/-! ### Waiting -/

/-- A strand at a record's lock goes on, or another one has the lock. -/
theorem Run.canGo_of_place (h : Run (.new backend catalog now) log s) (hi : s.place? me = some i) :
    s.CanGo me ∨ ∃ k, s.Blocks k me := by
  obtain ⟨r, x, hr, hl⟩ := h.holder_of_place hi
  by_cases hs : s.Same x me
  · exact .inl (h.canGo_of_holds ⟨r, x, hr, hl, hs⟩)
  · have hnot : ¬s.Holds me i := by
      rintro ⟨r', x', hr', hl', hs'⟩
      cases hr.symm.trans hr'
      cases hl.symm.trans hl'
      exact hs hs'
    obtain ⟨p, hp, hi⟩ := Option.bind_eq_some_iff.mp hi
    obtain hseeks | ⟨w, hw⟩ := Running.seeks?_of_place hi
    · exact .inr ⟨x, .inr ⟨i, ⟨r, x, hr, hl, .refl x⟩, ⟨p, hp, hseeks⟩, hnot⟩⟩
    · exact absurd (h.exclusive me i w ((System.work?_of_call hp rfl).trans hw)) hnot

theorem System.guard_eq_free_iff (hc : s.Counted) : s.store.guard = .free ↔ ∀ me, ¬s.Visits me := by
  constructor
  · rintro hfree me ⟨p, hp, hv⟩
    have hzero : s.calls.countP Running.visits = 0 := hc.guard.symm.trans (congrArg Guard.visitors hfree)
    exact List.countP_eq_zero.mp hzero p (List.mem_of_getElem? hp) hv
  · intro hnone
    refine Guard.eq_free_of_visitors (hc.guard.trans (List.countP_eq_zero.mpr fun p hp hv => ?_))
    obtain ⟨n, hn⟩ := List.mem_iff_getElem?.mp hp
    exact hnone ⟨n, 0⟩ ⟨p, hn, hv⟩

/-- A strand before the directory goes in, or another one is there. -/
theorem Run.canGo_of_enters (h : Run (.new backend catalog now) log s) (he : s.Enters me) :
    s.CanGo me ∨ ∃ k, s.Blocks k me := by
  by_cases hnone : ∀ k, ¬s.Visits k
  · obtain ⟨c, v, hp⟩ := he
    obtain ⟨g, hg⟩ : ∃ g, s.store.guard.enter v = some g := by
      rw [(System.guard_eq_free_iff h.counted).mpr hnone]
      exact ⟨_, rfl⟩
    refine .inl ⟨me, .refl me, System.awake_of_advance hp ⟨(.inside v, { s.store with guard := g }), ?_⟩⟩
    simp only [Point.advance, hg, Option.map_some]
  · obtain ⟨k, hk⟩ := Classical.not_forall.mp hnone
    exact .inr ⟨k, .inl ⟨Classical.not_not.mp hk, he⟩⟩

/-- A strand that has not come to its end goes on, or another one is in its way. -/
theorem Run.canGo_of_lives (h : Run (.new backend catalog now) log s) (hl : s.Lives me) :
    s.CanGo me ∨ ∃ k, s.Blocks k me := by
  obtain ⟨⟨c, p⟩, hp, hl⟩ := hl
  have asks {request : Request} (hr : p.request? me s.store = some request) : s.CanGo me :=
    ⟨me, .refl me, h.awake_of_asks ((System.request?_of_call hp).trans hr)⟩
  have place {i : Nat} (hi : Running.place? ⟨c, p⟩ me = some i) : s.CanGo me ∨ ∃ k, s.Blocks k me :=
    h.canGo_of_place ((System.place?_of_call hp rfl).trans hi)
  have checks {check : Check} (hc : p.check? me = some check) (hopen : check.report? = none)
      (hi : Running.place? ⟨c, p⟩ me = check.place?) : s.CanGo me ∨ ∃ k, s.Blocks k me := by
    cases check with
    | arriving j => exact .inl ⟨me, .refl me, h.awake_of_check hp hc (.inl ⟨_, rfl⟩)⟩
    | queued j | refreshing j => exact place hi
    | settled status => cases hopen
  cases p with
  | starting =>
    cases h.orderly.course hp with
    | create hes hc => exact .inl ⟨me, .refl me, System.awake_of_advance hp ⟨_, rfl⟩⟩
    | stop hes hc | remove hes hc | status hes hc | list hc | agent hes hc | address hes hc | ids hes hc => cases hc
  | provisioning | addressing | connecting | discarding => exact .inl (asks rfl)
  | entering v => exact h.canGo_of_enters ⟨c, v, hp⟩
  | inside v => exact .inl (h.canGo_of_visits ⟨_, hp, rfl⟩)
  | arriving i =>
    refine .inl ⟨me, .refl me, System.awake_of_advance hp ⟨(.queued i, s.store.requestLock i me), ?_⟩⟩
    simp only [Point.advance]
  | queued | destroying | closing => exact place rfl
  | checking check =>
    refine checks rfl ?_ rfl
    cases h.orderly.course hp with
    | status hes hc =>
      cases hc with
      | checking hb hid hc hn => exact hn
    | create hes hc | stop hes hc | remove hes hc | list hc | agent hes hc | address hes hc | ids hes hc => cases hc
  | gathering cs =>
    obtain ⟨check, hc, hopen⟩ := (Option.any_eq_true ..).mp hl
    refine checks hc (Option.isNone_iff_eq_none.mp hopen) ?_
    simp only [Running.place?, Point.check?, hc, Option.bind_some]
  | finished result => cases hl

theorem lives_ofChecks {filter : Sandbox.Filter} {checks : List Check}
    (hg : Running.gathers ⟨.list filter, Point.ofChecks filter checks⟩ = true) :
    ∃ part, ∀ n, Running.lives ⟨.list filter, Point.ofChecks filter checks⟩ ⟨n, part⟩ = true := by
  obtain ⟨reports, -, h⟩ | ⟨hchecks, h⟩ := Point.ofChecks_cases filter checks
  · rw [h] at hg
    cases hg
  · obtain ⟨check, hmem, hopen⟩ := exists_unsettled hchecks
    obtain ⟨part, hpart⟩ := List.mem_iff_getElem?.mp hmem
    refine ⟨part, fun n => ?_⟩
    rw [h]
    exact (Option.any_eq_true ..).mpr ⟨check, hpart, Option.isNone_iff_eq_none.mpr hopen⟩

theorem Run.lives_of_gathers (h : Run (.new backend catalog now) log s) {n : Nat} {p : Running}
    (hp : s.calls[n]? = some p) (hg : p.gathers = true) : ∃ part, ∀ n, p.lives ⟨n, part⟩ = true := by
  refine Run.call_induct (Q := fun _ p => p.gathers = true → ∃ part, ∀ n, p.lives ⟨n, part⟩ = true) ?_ ?_ h hp hg
  · intro c hg
    cases c <;> cases hg
  · intro backend me s t p q ds ns hq _ hg
    cases hq with
    | listed | gather => exact lives_ofChecks hg
    | @check id check next ds t h =>
      cases next with
      | settled status => cases status <;> cases hg
      | _ => cases hg
    | _ => cases hg

/-- A call that is in progress has a strand that has not come to its end. -/
theorem Run.exists_lives (h : Run (.new backend catalog now) log s) {n : Nat} {p : Running}
    (hp : s.calls[n]? = some p) (hopen : ∀ result, p.point ≠ .finished result) : ∃ part, s.Lives ⟨n, part⟩ := by
  cases hg : p.gathers with
  | true =>
    obtain ⟨part, hlives⟩ := h.lives_of_gathers hp hg
    exact ⟨part, p, hp, hlives n⟩
  | false =>
    refine ⟨0, p, hp, ?_⟩
    obtain ⟨c, p⟩ := p
    cases p with
    | gathering checks => cases hg
    | finished result => exact absurd rfl (hopen result)
    | _ => rfl

/-! ### No strands in each other's way -/

/-- Strands wait for one lock at a time and have no other one then, so none is in the way of another that is in its own
    way, however many others there are in between. -/
structure System.Untangled (s : System) : Prop where
  /-- The guard is free while nobody is in the directory. -/
  guard : s.store.guard = .free ↔ ∀ me, ¬s.Visits me
  entering : ∀ me i, s.Enters me → ¬s.Holds me i
  wanting : ∀ me i, s.Wants me i → ¬s.Visits me ∧ ∀ j, ¬s.Holds me j
  visiting : ∀ me, s.Visits me → s.request? me = none
  /-- Whoever is in the way of another goes on, and has nobody in its own way. -/
  blocking : ∀ k me, s.Blocks k me → s.CanGo k ∧ ∀ l, ¬s.Blocks l k
  living : ∀ me, s.Lives me → s.CanGo me ∨ ∃ k, s.Blocks k me
  /-- Some strand goes on whatever the order is in which the guard and the locks are granted. -/
  goes : ¬s.Idle → ∃ me, s.CanGo me ∧ ∀ k, ¬s.Blocks k me

theorem Run.not_holds_of_enters (h : Run (.new backend catalog now) log s) (he : s.Enters me) : ¬s.Holds me i := by
  intro hk
  obtain ⟨c, v, hp⟩ := he
  cases (System.place?_of_call hp rfl).symm.trans (h.place_of_holds hk)

theorem Run.not_holds_of_wants (h : Run (.new backend catalog now) log s) (hw : s.Wants me i) (j : Nat) :
    ¬s.Holds me j := by
  intro hk
  obtain ⟨⟨p, hp, hseeks⟩, hnot⟩ := hw
  have hplace := (System.place?_of_call hp rfl).symm.trans (h.place_of_holds hk)
  obtain hnone | hsome := Running.place?_of_seeks hseeks
  · cases hnone.symm.trans hplace
  · cases hsome.symm.trans hplace
    exact hnot hk

theorem System.Visits.seeks? {p : Running} (hv : s.Visits me) (hp : s.calls[me.call]? = some p) :
    p.seeks? me = none := by
  obtain ⟨p', hp', hv⟩ := hv
  cases hp.symm.trans hp'
  obtain ⟨c, p⟩ := p
  cases p with
  | inside v => rfl
  | _ => cases hv

theorem System.Visits.not_enters (hv : s.Visits me) : ¬s.Enters me := by
  rintro ⟨c, v, hp⟩
  obtain ⟨p, hp', hv⟩ := hv
  cases hp.symm.trans hp'
  cases hv

theorem System.Visits.not_wants (hv : s.Visits me) : ¬s.Wants me i := by
  rintro ⟨⟨p, hp, hseeks⟩, -⟩
  cases (hv.seeks? hp).symm.trans hseeks

theorem System.Visits.request?_eq_none (hv : s.Visits me) : s.request? me = none := by
  obtain ⟨⟨c, p⟩, hp, hv⟩ := hv
  rw [System.request?_of_call hp]
  cases p with
  | inside v => rfl
  | _ => cases hv

theorem Run.blocking (h : Run (.new backend catalog now) log s) (hb : s.Blocks k me) :
    s.CanGo k ∧ ∀ l, ¬s.Blocks l k := by
  obtain ⟨hv, -⟩ | ⟨i, hk, -⟩ := hb
  · refine ⟨h.canGo_of_visits hv, fun l hl => ?_⟩
    obtain ⟨-, he⟩ | ⟨j, -, hw⟩ := hl
    · exact hv.not_enters he
    · exact hv.not_wants hw
  · refine ⟨h.canGo_of_holds hk, fun l hl => ?_⟩
    obtain ⟨-, he⟩ | ⟨j, -, hw⟩ := hl
    · exact h.not_holds_of_enters he hk
    · exact h.not_holds_of_wants hw i hk

theorem Run.goes_on (h : Run (.new backend catalog now) log s) (hidle : ¬s.Idle) :
    ∃ me, s.CanGo me ∧ ∀ k, ¬s.Blocks k me := by
  obtain ⟨p, hmem, hopen⟩ : ∃ p ∈ s.calls, ∀ result, p.point ≠ .finished result := by
    simpa [System.Idle] using hidle
  obtain ⟨n, hp⟩ := List.mem_iff_getElem?.mp hmem
  obtain ⟨part, hlives⟩ := h.exists_lives hp hopen
  by_cases hblocked : ∃ k, s.Blocks k ⟨n, part⟩
  · obtain ⟨k, hk⟩ := hblocked
    exact ⟨k, h.blocking hk⟩
  · exact ⟨⟨n, part⟩, (h.canGo_of_lives hlives).resolve_right hblocked, fun k hk => hblocked ⟨k, hk⟩⟩

theorem reachable_untangled (h : System.Reachable backend catalog now s) : s.Untangled := by
  obtain ⟨log, h⟩ := reachable_iff.mp h
  exact {
    guard := System.guard_eq_free_iff h.counted
    entering := fun _ _ he => h.not_holds_of_enters he
    wanting := fun _ _ hw => ⟨fun hv => hv.not_wants hw, h.not_holds_of_wants hw⟩
    visiting := fun _ hv => hv.request?_eq_none
    blocking := fun _ _ hb => h.blocking hb
    living := fun _ hl => h.canGo_of_lives hl
    goes := h.goes_on
  }

end

namespace Tour

/-- A list has the locks of two records at once, and a remove waits behind it while a sandbox is put into the
    directory. -/
def crowd : List Move :=
  create 0 gone 0 ++ create 1 kept 1 ++
  [.pass 30001, .start (.list .everything), .advance ⟨2, 0⟩, .advance ⟨2, 0⟩, .advance ⟨2, 0⟩, .advance ⟨2, 1⟩,
    .advance ⟨2, 0⟩, .advance ⟨2, 1⟩, .start (.remove "gone"), .advance ⟨3, 0⟩, .advance ⟨3, 0⟩, .advance ⟨3, 0⟩] ++
  provision 4 lost ++ [.answer ⟨4, 0⟩ (.connect address) (.ok 2), .advance ⟨4, 0⟩, .start (.stop "kept")]

def crowded : System :=
  ((System.new "fake" none 0).played crowd).2

end Tour

theorem reachable_untangled_crowded :
    Tour.crowded.Untangled ∧ ¬Tour.crowded.Idle ∧
      Tour.crowded.Holds ⟨2, 0⟩ 0 ∧ Tour.crowded.Holds ⟨2, 1⟩ 1 ∧
      Tour.crowded.Blocks ⟨2, 0⟩ ⟨3, 0⟩ ∧ Tour.crowded.Blocks ⟨4, 0⟩ ⟨5, 0⟩ := by
  have hrun := System.run_played (s := .new "fake" none 0) Tour.crowd
  have hholds : Tour.crowded.Holds ⟨2, 0⟩ 0 := ⟨_, _, rfl, rfl, .refl _⟩
  have hfree : ¬Tour.crowded.Holds ⟨3, 0⟩ 0 := by
    rintro ⟨r, h, hr, hl, hsame⟩
    cases hr
    cases hl
    cases hsame.1
  exact ⟨reachable_untangled (reachable_iff.mpr ⟨_, hrun⟩), by decide +kernel, hholds, ⟨_, _, rfl, rfl, .refl _⟩,
    .inr ⟨0, hholds, ⟨_, rfl, rfl⟩, hfree⟩, .inl ⟨⟨_, rfl, rfl⟩, _, _, rfl⟩⟩

end PodMachines.Pods
