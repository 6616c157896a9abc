import PodMachines.Proofs.Pods.Turn

/-! One strand works at a record at a time: it has the record's lock, and the lock stays with it until it lets it
    go. So whoever takes a turn at a record finds it as the strand before left it. -/

namespace PodMachines.Pods

/-! ### What other strands do not notice -/

section
variable {backend : String} {me k : Strand} {s t : Store} {p q : Running} {ds : List Deed}

theorem Pace.now_eq (h : Pace backend me s p ds q t) : t.now = s.now := by
  cases h with
  | forget id i => split <;> rfl
  | check h => cases h <;> rfl
  | gather hc h => cases h <;> rfl
  | _ => rfl

theorem Pace.work?_of_gathers (h : Pace backend me s p ds q t) (hg : p.gathers = true) (hk : k.part ≠ me.part) :
    q.work? k = p.work? k := by
  cases h with
  | gather hc h =>
    rw [work?_ofChecks, List.getElem?_set_ne (Ne.symm hk)]
    rfl
  | _ => cases hg

/-- A call that is not a list at its checks has one strand only. -/
theorem Pace.work?_of_single (h : Pace backend me s p ds q t) (hg : p.gathers = false) :
    p.work? k = p.work? me ∧ q.work? k = q.work? me := by
  cases h with
  | gather hc h => cases hg
  | @listed filter =>
    refine ⟨rfl, ?_⟩
    simp only [work?_ofChecks, List.getElem?_map]
    cases (Point.listed s filter)[k.part]? <;> cases (Point.listed s filter)[me.part]? <;> rfl
  | check h =>
    refine ⟨rfl, ?_⟩
    rw [work?_ofCheck, work?_ofCheck]
  | _ => exact ⟨rfl, rfl⟩

theorem Pace.gathers_of_gathers (h : Pace backend me s p ds q t) (hg : q.gathers = true) :
    p.gathers = true ∨ q.work? me = none := by
  cases h with
  | gather hc h => exact .inl rfl
  | @listed filter =>
    right
    simp only [work?_ofChecks, List.getElem?_map]
    cases (Point.listed s filter)[me.part]? <;> rfl
  | @check id check next ds t h =>
    cases next with
    | settled status => cases status <;> cases hg
    | _ => cases hg
  | _ => cases hg

end

/-! ### Strands of the pods -/

namespace System

/-- The work of a strand, and the record. -/
def work? (s : System) (me : Strand) : Option (Nat × Work) :=
  s.calls[me.call]?.bind (·.work? me)

/-- Two strands are one: they are of one call, and of one check if the call is a list at its checks. -/
def Same (s : System) (k me : Strand) : Prop :=
  k.call = me.call ∧ ∀ p, s.calls[me.call]? = some p → p.gathers = true → k.part = me.part

/-- Whoever works at a record has its lock. -/
def Exclusive (s : System) : Prop :=
  ∀ me i x, s.work? me = some (i, x) →
    ∃ r h, s.store.records[i]? = some r ∧ r.lock.holder = some h ∧ s.Same h me

/-- Who works at a record, and what the work is; none if nobody does. -/
def Sits (s : System) (i : Nat) (w : Option (Nat × Work)) : Prop :=
  ∀ n x, w = some (n, x) ↔ ∃ me : Strand, me.call = n ∧ s.work? me = some (i, x)

variable {s t : System} {me k h : Strand}

theorem Same.symm (hs : s.Same k me) : s.Same me k := by
  obtain ⟨hc, hp⟩ := hs
  exact ⟨hc.symm, fun p h hg => (hp p (hc ▸ h) hg).symm⟩

theorem Same.trans (h₁ : s.Same h k) (h₂ : s.Same k me) : s.Same h me := by
  obtain ⟨hc, hp⟩ := h₁
  obtain ⟨hc', hp'⟩ := h₂
  exact ⟨hc.trans hc', fun p h hg => (hp p (hc'.symm ▸ h) hg).trans (hp' p h hg)⟩

theorem Same.eq {p : Running} (hs : s.Same k me) (hp : s.calls[me.call]? = some p) (hg : p.gathers = true) :
    k = me := by
  obtain ⟨hc, hpart⟩ := hs
  cases k
  cases me
  cases hc
  exact congrArg _ (hpart p hp hg)

theorem gathers_of_not_same {p : Running} (hp : s.calls[me.call]? = some p) (hk : k.call = me.call)
    (hs : ¬s.Same k me) : p.gathers = true ∧ k.part ≠ me.part := by
  refine Decidable.byContradiction fun hnot => hs ⟨hk, fun p' hp' hg => ?_⟩
  cases hp.symm.trans hp'
  exact Decidable.byContradiction fun hne => hnot ⟨hg, hne⟩

theorem work?_start (c : Call) : (s.start c).work? me = s.work? me := by
  unfold work? start
  rw [List.getElem?_append]
  by_cases hn : me.call < s.calls.length
  · rw [if_pos hn]
  · rw [if_neg hn, List.getElem?_eq_none (Nat.le_of_not_lt hn)]
    cases me.call - s.calls.length with
    | zero => cases c <;> rfl
    | succ n => rfl

theorem Sits.unique {i : Nat} {w w' : Option (Nat × Work)} (h : s.Sits i w) (h' : s.Sits i w') : w = w' :=
  Option.ext fun ⟨n, x⟩ => (h n x).trans (h' n x).symm

/-! ### One step of a strand -/

section
variable {p q : Running} {ds : List Deed} {st : Store}

theorem work?_after_of_call_ne (hk : k.call ≠ me.call) : (s.after me q st).work? k = s.work? k := by
  unfold work? after
  rw [List.getElem?_set_ne (Ne.symm hk)]

theorem work?_of_call (hp : s.calls[me.call]? = some p) (hk : k.call = me.call) : s.work? k = p.work? k := by
  unfold work?
  rw [hk, hp]
  rfl

theorem work?_after_of_call (hp : s.calls[me.call]? = some p) (hk : k.call = me.call) :
    (s.after me q st).work? k = q.work? k := by
  have hn := (List.getElem?_eq_some_iff.mp hp).1
  unfold work? after
  rw [hk, List.getElem?_set_self hn]
  rfl

variable (hp : s.calls[me.call]? = some p) (hq : Pace s.backend me s.store p ds q st)
include hp hq

theorem work?_of_same (hs : s.Same k me) : s.work? k = p.work? me ∧ (s.after me q st).work? k = q.work? me := by
  rw [work?_of_call hp hs.1, work?_after_of_call hp hs.1]
  cases hg : p.gathers with
  | true =>
    obtain rfl := hs.eq hp hg
    exact ⟨rfl, rfl⟩
  | false => exact hq.work?_of_single hg

theorem work?_of_not_same (hs : ¬s.Same k me) : (s.after me q st).work? k = s.work? k := by
  by_cases hk : k.call = me.call
  · obtain ⟨hg, hpart⟩ := gathers_of_not_same hp hk hs
    rw [work?_of_call hp hk, work?_after_of_call hp hk]
    exact hq.work?_of_gathers hg hpart
  · exact work?_after_of_call_ne hk

/-- A step without work before and after it changes nobody's work. -/
theorem work?_after_of_none (hpw : p.work? me = none) (hqw : q.work? me = none) (k : Strand) :
    (s.after me q st).work? k = s.work? k := by
  by_cases hs : s.Same k me
  · obtain ⟨h, h'⟩ := work?_of_same hp hq hs
    rw [h, h', hpw, hqw]
  · exact work?_of_not_same hp hq hs

/-- Strands that are one stay one, if the strand that goes on works at a record afterwards. -/
theorem Same.after {a b : Strand} (ha : s.Same a me) (hb : s.Same b me) (hw : q.work? me ≠ none) :
    (s.after me q st).Same a b := by
  refine ⟨ha.1.trans hb.1.symm, fun p' hp' hg => ?_⟩
  have hn := (List.getElem?_eq_some_iff.mp hp).1
  simp only [System.after, hb.1, List.getElem?_set_self hn, Option.some.injEq] at hp'
  subst hp'
  rcases hq.gathers_of_gathers hg with hg | hnone
  · exact (ha.2 p hp hg).trans (hb.2 p hp hg).symm
  · exact absurd hnone hw

omit hq in
/-- Strands that are one stay one while another strand goes on. -/
theorem Same.after_of_not_same {a b : Strand} (h : s.Same a b) (hb : ¬s.Same b me) : (s.after me q st).Same a b := by
  refine ⟨h.1, fun p' hp' hg => ?_⟩
  by_cases hc : b.call = me.call
  · have hpart : p.gathers = true := by
      refine Decidable.byContradiction fun hg' => hb ⟨hc, fun p' hp' hg => ?_⟩
      rw [hp] at hp'
      cases hp'
      exact absurd hg hg'
    exact h.2 p (hc ▸ hp) hpart
  · simp only [System.after, List.getElem?_set_ne (Ne.symm hc)] at hp'
    exact h.2 p' hp' hg

end

/-! ### Whoever works has the lock -/

section
variable {p q : Running} {ds : List Deed} {st : Store} {j : Nat} {r r' : Record} {w w' : Option Work} {now : Nat}

/-- Nobody else works at the record at which a strand takes its turn. -/
theorem Exclusive.same_of_turn (hx : s.Exclusive) (hp : s.calls[me.call]? = some p)
    (hq : Pace s.backend me s.store p ds q st) (hr : s.store.records[j]? = some r) (ht : Turn me now r w ds r' w')
    (hw : p.work? me = w.map (j, ·)) {x : Work} (hk : s.work? k = some (j, x)) : s.Same k me ∧ w = some x := by
  obtain ⟨r₀, h₀, hr₀, hl, hsame⟩ := hx k j x hk
  rw [hr] at hr₀
  cases hr₀
  have hkme : s.Same k me := by
    cases w with
    | none =>
      rw [ht.holder] at hl
      cases hl
      exact hsame.symm
    | some y =>
      have hme : s.work? me = some (j, y) := by
        rw [work?_of_call hp rfl, hw]
        rfl
      obtain ⟨r₁, h₁, hr₁, hl₁, hsame₁⟩ := hx me j y hme
      rw [hr] at hr₁
      cases hr₁
      rw [hl] at hl₁
      cases hl₁
      exact hsame.symm.trans hsame₁
  refine ⟨hkme, ?_⟩
  rw [(work?_of_same hp hq hkme).1, hw] at hk
  cases w with
  | none => cases hk
  | some y => cases hk; rfl

/-- A strand that is not the one that goes on keeps the locks it works with. -/
theorem Exclusive.holder_kept (hx : s.Exclusive) (hp : s.calls[me.call]? = some p)
    (hq : Pace s.backend me s.store p ds q st) (hk : ¬s.Same k me) {i : Nat} {x : Work}
    (hw : s.work? k = some (i, x)) {r : Record} {h : Strand} (hr : s.store.records[i]? = some r)
    (hl : r.lock.holder = some h) : ∃ r', st.records[i]? = some r' ∧ r'.lock.holder = some h := by
  cases hq.touch with
  | away _ ht _ _ => exact ⟨r, ht ▸ hr, hl⟩
  | pass _ _ ht _ _ => exact ⟨r, ht ▸ hr, hl⟩
  | born _ _ ht _ _ => exact ⟨r, by rw [ht, List.getElem?_append_left (List.getElem?_eq_some_iff.mp hr).1, hr], hl⟩
  | @request j _ ht _ _ =>
    subst ht
    by_cases hij : j = i
    · subst hij
      refine ⟨{ r with lock := r.lock.request me }, ?_, ?_⟩
      · simp [Store.requestLock, Store.modify, hr]
      · simp [Lock.request, hl]
    · exact ⟨r, by simp [Store.requestLock, Store.modify, hij, hr], hl⟩
  | @turn j _ r₀ r' hr₀ w w' h ht hpw _ =>
    have hij : j ≠ i := by
      rintro rfl
      exact hk (hx.same_of_turn hp hq hr₀ h hpw hw).1
    exact ⟨r, by rw [ht, List.getElem?_set_ne hij, hr], hl⟩

end

theorem Exclusive.after (hx : s.Exclusive) {p q : Running} {ds : List Deed} {st : Store}
    (hp : s.calls[me.call]? = some p) (hq : Pace s.backend me s.store p ds q st) : (s.after me q st).Exclusive := by
  intro k i x hk
  by_cases hs : s.Same k me
  · -- The strand that goes on has the lock that it just got, or that it worked with before.
    have hqw : q.work? me = some (i, x) := (work?_of_same hp hq hs).2 ▸ hk
    have hne : q.work? me ≠ none := by simp [hqw]
    cases hq.touch with
    | away _ _ _ hnone => exact absurd hnone hne
    | pass _ _ _ _ hnone => exact absurd hnone hne
    | born _ _ _ _ hnone => exact absurd hnone hne
    | request _ _ _ hnone => exact absurd hnone hne
    | @turn j _ r r' hr w w' h ht hpw hqw' =>
      cases w' with
      | none => exact absurd hqw' hne
      | some y =>
        rw [hqw] at hqw'
        cases hqw'
        cases h.eq_of_work
        have hr' : (s.after me q st).store.records[i]? = some r := by
          show st.records[i]? = some r
          rw [ht, ← set_self hr, hr]
        cases w with
        | none => exact ⟨r, me, hr', h.holder, Same.after hp hq ⟨rfl, fun _ _ _ => rfl⟩ hs hne⟩
        | some z =>
          have hme : s.work? me = some (i, z) := by
            rw [work?_of_call hp rfl, hpw]
            rfl
          obtain ⟨r₀, h₀, hr₀, hl, hsame⟩ := hx me i z hme
          rw [hr] at hr₀
          cases hr₀
          exact ⟨r, h₀, hr', hl, Same.after hp hq hsame hs hne⟩
  · have hw : s.work? k = some (i, x) := work?_of_not_same hp hq hs ▸ hk
    obtain ⟨r, h, hr, hl, hsame⟩ := hx k i x hw
    obtain ⟨r', hr', hl'⟩ := hx.holder_kept hp hq hs hw hr hl
    exact ⟨r', h, hr', hl', Same.after_of_not_same hp hsame hs⟩

theorem Exclusive.goes {notes : List Note} (hx : s.Exclusive) (h : s.Goes notes t) : t.Exclusive := by
  cases h with
  | start c =>
    intro k i x hk
    rw [work?_start] at hk
    obtain ⟨r, h, hr, hl, hc, hg⟩ := hx k i x hk
    refine ⟨r, h, hr, hl, hc, fun p hp hg' => ?_⟩
    simp only [start, List.getElem?_append] at hp
    by_cases hn : k.call < s.calls.length
    · rw [if_pos hn] at hp
      exact hg p hp hg'
    · rw [if_neg hn] at hp
      have := List.mem_singleton.mp (List.mem_of_getElem? hp)
      subst this
      cases c <;> cases hg'
  | pace hp hq => exact hx.after hp hq
  | pass milliseconds => exact hx
  | enableImageBoot => exact hx

/-! ### Who works where, after a step -/

section
variable {p q : Running} {ds : List Deed} {st : Store} {i : Nat} {w : Option (Nat × Work)}

theorem Sits.congr (h : s.Sits i w) (hw : ∀ k x, t.work? k = some (i, x) ↔ s.work? k = some (i, x)) : t.Sits i w := by
  intro n x
  rw [h n x]
  simp only [hw]

theorem sits_start (c : Call) (h : s.Sits i w) : (s.start c).Sits i w :=
  h.congr fun k x => by rw [work?_start]

/-- A step without work before and after it leaves all work as it was. -/
theorem Sits.after_of_none (h : s.Sits i w) (hp : s.calls[me.call]? = some p)
    (hq : Pace s.backend me s.store p ds q st) (hpw : p.work? me = none) (hqw : q.work? me = none) :
    (s.after me q st).Sits i w :=
  h.congr fun k x => by rw [work?_after_of_none hp hq hpw hqw]

variable {j : Nat} {r r' : Record} {x x' : Option Work} {now : Nat}

/-- A turn at another record leaves the work at this one as it was. -/
theorem Sits.after_of_ne (h : s.Sits i w) (hp : s.calls[me.call]? = some p)
    (hq : Pace s.backend me s.store p ds q st) (hij : j ≠ i) (hpw : p.work? me = x.map (j, ·))
    (hqw : q.work? me = x'.map (j, ·)) : (s.after me q st).Sits i w := by
  refine h.congr fun k y => ?_
  by_cases hs : s.Same k me
  · obtain ⟨h₁, h₂⟩ := work?_of_same hp hq hs
    rw [h₁, h₂, hpw, hqw]
    cases x <;> cases x' <;> simp [hij]
  · rw [work?_of_not_same hp hq hs]

/-- Before its turn at a record, a strand works there alone or nobody does. -/
theorem Exclusive.sits_of_turn (hx : s.Exclusive) (hp : s.calls[me.call]? = some p)
    (hq : Pace s.backend me s.store p ds q st) (hr : s.store.records[j]? = some r) (ht : Turn me now r x ds r' x')
    (hpw : p.work? me = x.map (j, ·)) : s.Sits j (x.map (me.call, ·)) := by
  intro n y
  constructor
  · intro h
    cases x with
    | none => cases h
    | some z =>
      cases h
      refine ⟨me, rfl, ?_⟩
      rw [work?_of_call hp rfl, hpw]
      rfl
  · rintro ⟨k, rfl, hk⟩
    obtain ⟨hs, rfl⟩ := hx.same_of_turn hp hq hr ht hpw hk
    rw [hs.1]
    rfl

/-- After its turn at a record, a strand works there alone or nobody does. -/
theorem Exclusive.sits_after_turn (hx : s.Exclusive) (hp : s.calls[me.call]? = some p)
    (hq : Pace s.backend me s.store p ds q st) (hr : s.store.records[j]? = some r) (ht : Turn me now r x ds r' x')
    (hpw : p.work? me = x.map (j, ·)) (hqw : q.work? me = x'.map (j, ·)) :
    (s.after me q st).Sits j (x'.map (me.call, ·)) := by
  intro n y
  constructor
  · intro h
    cases x' with
    | none => cases h
    | some z =>
      cases h
      refine ⟨me, rfl, ?_⟩
      rw [work?_after_of_call hp rfl, hqw]
      rfl
  · rintro ⟨k, rfl, hk⟩
    by_cases hs : s.Same k me
    · rw [(work?_of_same hp hq hs).2, hqw] at hk
      cases x' with
      | none => cases hk
      | some z =>
        cases hk
        rw [hs.1]
        rfl
    · rw [work?_of_not_same hp hq hs] at hk
      exact absurd (hx.same_of_turn hp hq hr ht hpw hk).1 hs

end

end System

theorem Run.exclusive {backend : String} {catalog : Option String} {now : Nat} {log : List Note} {s : System}
    (h : Run (.new backend catalog now) log s) : s.Exclusive := by
  refine Run.induct (P := fun _ t => t.Exclusive) ?_ ?_ h
  · intro me i x hw
    cases hw
  · intro log notes t u _ ih hg
    exact ih.goes hg

end PodMachines.Pods
