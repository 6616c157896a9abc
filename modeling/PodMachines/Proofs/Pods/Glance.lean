import PodMachines.Proofs.Pods.Account

/-! Calls that only look into the directory. Such a call is told what the directory holds at the one step in which it
    is inside, and every state leads on to its end: a writer in the directory can always leave. -/

namespace PodMachines.Pods

/-- What a call is told that only looks into the directory. -/
def Store.glance (s : Store) : (c : Call) → Option c.Result
  | .agent id => some (match (s.directory.find? id).bind (s.records[·]?) with
      | some r => .ok r.agent
      | none => Point.missing id)
  | .address id => some (match (s.directory.find? id).bind (s.records[·]?) with
      | some r => .ok r.address
      | none => Point.missing id)
  | .ids => some s.directory.keys
  | _ => none

def Call.Glances (c : Call) : Prop :=
  (∃ id, c = .agent id) ∨ (∃ id, c = .address id) ∨ c = .ids

section
variable {s t : Store} {c : Call} {p : Point c} {me : Strand} {result : c.Result}

theorem Point.visit_glance (s : Store) (hc : c.Glances) :
    ∃ result, s.glance c = some result ∧ Point.visit s c .lookup = some (.finished result, s) := by
  obtain ⟨id, rfl⟩ | ⟨id, rfl⟩ | rfl := hc <;> exact ⟨_, rfl, rfl⟩

/-- A call that only looks comes to its end in the directory, and is told what is there. -/
theorem Point.advance_glance (hc : c.Glances) (h : p.advance me s = some (.finished result, t)) :
    p = .inside .lookup ∧ s.glance c = some result := by
  cases p with
  | inside v =>
    simp only [advance] at h
    cases v with
    | lookup =>
      obtain ⟨told, hg, hv⟩ := Point.visit_glance { s with guard := s.guard.leave } hc
      cases hv.symm.trans h
      refine ⟨rfl, hg ▸ ?_⟩
      obtain ⟨id, rfl⟩ | ⟨id, rfl⟩ | rfl := hc <;> rfl
    | _ => obtain ⟨id, rfl⟩ | ⟨id, rfl⟩ | rfl := hc <;> cases h
  | entering v =>
    simp only [advance, Option.map_eq_some_iff] at h
    obtain ⟨guard, -, h⟩ := h
    cases h
  | arriving i =>
    simp only [advance] at h
    cases h
  | queued i =>
    simp only [advance] at h
    obtain ⟨id, rfl⟩ | ⟨id, rfl⟩ | rfl := hc <;> split at h <;> cases h
  | _ => obtain ⟨id, rfl⟩ | ⟨id, rfl⟩ | rfl := hc <;> cases h

theorem Point.answer_glance {backend : String} {request : Request} {a : request.Answer} (hc : c.Glances) :
    p.answer backend me s request a = none := by
  obtain ⟨id, rfl⟩ | ⟨id, rfl⟩ | rfl := hc <;> cases p <;> rfl

end

/-- A call that only looks has ended before a move, or is told by it what is in the directory. -/
theorem System.glanced {s t : System} {m : Move} (hm : s.move? m = some t) {k : Nat} {c : Call} {p : Point c}
    {result : c.Result} (hc : c.Glances) (hs : s.calls[k]? = some ⟨c, p⟩)
    (ht : t.calls[k]? = some ⟨c, .finished result⟩) :
    p = .finished result ∨
      (∃ part, m = .advance ⟨k, part⟩) ∧ p = .inside .lookup ∧ s.store.glance c = some result := by
  have same (h : t.calls[k]? = s.calls[k]?) : p = .finished result := by
    rw [ht, hs] at h
    cases h
    rfl
  cases m with
  | start c' =>
    cases hm
    exact .inl (same (List.getElem?_append_left (List.getElem?_eq_some_iff.mp hs).1))
  | pass milliseconds =>
    cases hm
    exact .inl (same rfl)
  | enableImageBoot =>
    cases hm
    exact .inl (same rfl)
  | advance me =>
    simp only [move?, advance] at hm
    split at hm
    · rename_i running hp
      obtain ⟨⟨q, st⟩, hq, rfl⟩ := Option.map_eq_some_iff.mp hm
      by_cases hk : me.call = k
      · subst hk
        cases hp.symm.trans hs
        rw [place, List.getElem?_set_self (List.getElem?_eq_some_iff.mp hs).1] at ht
        cases ht
        exact .inr ⟨⟨me.part, rfl⟩, Point.advance_glance hc hq⟩
      · exact .inl (same (List.getElem?_set_ne hk))
    · cases hm
  | answer me request a =>
    obtain ⟨p', q, ds, st, hp, rfl, -⟩ := pace_of_answer hm
    by_cases hk : me.call = k
    · subst hk
      cases hp.symm.trans hs
      simp only [move?, answer, hp, Point.answer_glance hc, Option.map_none, ite_self] at hm
      cases hm
    · exact .inl (same (List.getElem?_set_ne hk))

/-! ### Writers in the directory -/

/-- Whether a call is in the directory. -/
def Running.visits (p : Running) : Bool :=
  match p.point with
  | .inside _ => true
  | _ => false

/-- While a writer is in the directory, some call is there to write. -/
def System.Attended (s : System) : Prop :=
  s.store.guard = .writer → ∃ (n : Nat) (c : Call) (v : Visit), s.calls[n]? = some ⟨c, .inside v⟩ ∧ v.writes = true

theorem Guard.leave_ne_writer (g : Guard) : g.leave ≠ .writer := by
  cases g with
  | readers others => cases others <;> exact nofun
  | _ => exact nofun

theorem Guard.writes_of_enter {g g' : Guard} {v : Visit} (h : g.enter v = some g') (hw : g' = .writer) :
    v.writes = true := by
  subst hw
  cases g with
  | free =>
    simp only [enter, Option.some.injEq] at h
    split at h
    · assumption
    · cases h
  | readers n =>
    simp only [enter] at h
    split at h <;> cases h
  | writer => cases h

/-- What a step does at the guard: it enters, leaves, or stays away. -/
theorem Pace.guard {backend : String} {me : Strand} {s t : Store} {p q : Running} {ds : List Deed}
    (h : Pace backend me s p ds q t) :
    (∃ c v, p = ⟨c, .entering v⟩ ∧ q = ⟨c, .inside v⟩ ∧ s.guard.enter v = some t.guard) ∨
      t.guard = s.guard.leave ∨ t.guard = s.guard ∧ p.visits = false := by
  cases h with
  | @enter c v g hg => exact .inl ⟨c, v, rfl, rfl, hg⟩
  | enroll | stopFound | stopMissing | removeFound | removeMissing | statusFound | statusMissing | listed | told =>
    exact .inr (.inl rfl)
  | forget =>
    refine .inr (.inl ?_)
    split <;> rfl
  | check h => cases h <;> exact .inr (.inr ⟨rfl, rfl⟩)
  | gather hc h => cases h <;> exact .inr (.inr ⟨rfl, rfl⟩)
  | _ => exact .inr (.inr ⟨rfl, rfl⟩)

section
variable {backend : String} {catalog : Option String} {now : Nat} {log : List Note} {s t : System}

theorem System.Attended.goes {notes : List Note} (h : s.Attended) (hg : s.Goes notes t) : t.Attended := by
  cases hg with
  | start c' =>
    intro hw
    obtain ⟨n, c, v, hn, hv⟩ := h hw
    refine ⟨n, c, v, ?_, hv⟩
    rw [start, List.getElem?_append_left (List.getElem?_eq_some_iff.mp hn).1, hn]
  | @pace me p q ds st hp hq =>
    intro hw
    obtain ⟨c, v, rfl, rfl, he⟩ | hl | ⟨hsame, hin⟩ := hq.guard
    · exact ⟨me.call, c, v, List.getElem?_set_self (List.getElem?_eq_some_iff.mp hp).1, Guard.writes_of_enter he hw⟩
    · exact absurd (hl.symm.trans hw) (Guard.leave_ne_writer _)
    · obtain ⟨n, c, v, hn, hv⟩ := h (hsame.symm.trans hw)
      refine ⟨n, c, v, ?_, hv⟩
      have hne : me.call ≠ n := by
        rintro rfl
        cases hp.symm.trans hn
        cases hin
      rw [after, List.getElem?_set_ne hne, hn]
  | pass milliseconds => exact h
  | enableImageBoot => exact h

theorem Run.attended (h : Run (.new backend catalog now) log s) : s.Attended := by
  refine Run.induct (P := fun _ s => s.Attended) ?_ ?_ h
  · intro hw
    cases hw
  intro log notes t u _ ih hg
  exact ih.goes hg

/-! ### Looking comes to an end -/

theorem System.advance_eq_some {me : Strand} {c : Call} {p q : Point c} {st : Store}
    (hp : s.calls[me.call]? = some ⟨c, p⟩) (h : p.advance me s.store = some (q, st)) :
    s.advance me = some (s.place me.call (q, st)) := by
  simp only [advance, hp, h, Option.map_some]

/-- Whoever writes in the directory may leave it, so that nobody does. -/
theorem Run.vacated (h : Run (.new backend catalog now) log s) : ∃ more t, Run s more t ∧
    t.store.guard ≠ .writer ∧ ∀ (n : Nat) (c : Call) (p : Point c), c.Glances → s.calls[n]? = some ⟨c, p⟩ →
      t.calls[n]? = some ⟨c, p⟩ := by
  by_cases hw : s.store.guard = .writer
  · obtain ⟨n, c, v, hn, hv⟩ := h.attended hw
    -- Only a create or a remove writes, and its visit can be made.
    have leaves : ∃ (q : Point c) (st : Store), (Point.inside v : Point c).advance ⟨n, 0⟩ s.store = some (q, st) ∧
        st.guard = s.store.guard.leave ∧ ¬c.Glances := by
      simp only [Point.advance]
      cases h.orderly.course hn with
      | create hes hc =>
        cases hc with
        | enrolling => exact ⟨_, _, rfl, rfl, by rintro (⟨id, h⟩ | ⟨id, h⟩ | h) <;> cases h⟩
      | remove hes hc =>
        cases hc with
        | looking => cases hv
        | forgetting =>
          refine ⟨_, _, rfl, ?_, by rintro (⟨id, h⟩ | ⟨id, h⟩ | h) <;> cases h⟩
          split <;> rfl
      | stop hes hc => cases hc with | looking => cases hv
      | status hes hc => cases hc with | looking => cases hv
      | list hc =>
        generalize account n log = ns at hc
        cases hc with | looking => cases hv
      | agent hes hc => cases hc with | looking => cases hv
      | address hes hc => cases hc with | looking => cases hv
      | ids hes hc => cases hc with | looking => cases hv
    obtain ⟨q, st, hq, hguard, hglance⟩ := leaves
    have hmove : s.move? (.advance ⟨n, 0⟩) = some _ := System.advance_eq_some hn hq
    refine ⟨_, _, Run.rest.move _ hmove, ?_, fun k c' p hc hk => ?_⟩
    · show st.guard ≠ .writer
      rw [hguard]
      exact Guard.leave_ne_writer _
    · have hne : n ≠ k := by
        rintro rfl
        obtain rfl : c' = c := congrArg Running.call (Option.some.inj (hk.symm.trans hn))
        exact hglance hc
      rw [System.place, List.getElem?_set_ne hne, hk]
  · exact ⟨[], s, .rest, hw, fun n c p _ hn => hn⟩

theorem Guard.enter_lookup {g : Guard} (h : g ≠ .writer) : ∃ g', g.enter .lookup = some g' := by
  cases g with
  | free => exact ⟨_, rfl⟩
  | readers n => exact ⟨_, rfl⟩
  | writer => exact absurd rfl h

/-- A call that only looks can be brought to its end from wherever it stands. -/
theorem Run.glance_ends (h : Run (.new backend catalog now) log s) {k : Nat} {c : Call} {p : Point c} (hc : c.Glances)
    (hk : s.calls[k]? = some ⟨c, p⟩) :
    ∃ more t result, Run s more t ∧ t.calls[k]? = some ⟨c, .finished result⟩ := by
  have inside {t : System} {more : List Note} (hr : Run s more t) (ht : t.calls[k]? = some ⟨c, .inside .lookup⟩) :
      ∃ more t result, Run s more t ∧ t.calls[k]? = some ⟨c, .finished result⟩ := by
    obtain ⟨result, -, hv⟩ := Point.visit_glance t.store.left hc
    have hq : (Point.inside .lookup : Point c).advance ⟨k, 0⟩ t.store = some (.finished result, t.store.left) := by
      simp only [Point.advance]
      exact hv
    have hm : t.move? (.advance ⟨k, 0⟩) = some _ := System.advance_eq_some ht hq
    exact ⟨_, _, result, hr.move _ hm, List.getElem?_set_self (List.getElem?_eq_some_iff.mp ht).1⟩
  have entering (hk : s.calls[k]? = some ⟨c, .entering .lookup⟩) :
      ∃ more t result, Run s more t ∧ t.calls[k]? = some ⟨c, .finished result⟩ := by
    obtain ⟨more, t, hr, hw, hkept⟩ := h.vacated
    have ht := hkept k c _ hc hk
    obtain ⟨g, hg⟩ := Guard.enter_lookup hw
    have hq : (Point.entering .lookup : Point c).advance ⟨k, 0⟩ t.store =
        some (.inside .lookup, { t.store with guard := g }) := by
      simp only [Point.advance, hg, Option.map_some]
    have hm : t.move? (.advance ⟨k, 0⟩) = some _ := System.advance_eq_some ht hq
    exact inside (hr.move _ hm) (List.getElem?_set_self (List.getElem?_eq_some_iff.mp ht).1)
  have telling {es : List Entry} (ht : Telling c p es) :
      ∃ more t result, Run s more t ∧ t.calls[k]? = some ⟨c, .finished result⟩ := by
    cases ht with
    | starting => exact entering hk
    | looking => exact inside .rest hk
    | told result => exact ⟨[], s, result, .rest, hk⟩
  cases h.orderly.course hk with
  | agent hes ht | address hes ht | ids hes ht => exact telling ht
  | _ => obtain ⟨id, h⟩ | ⟨id, h⟩ | h := hc <;> cases h

end

end PodMachines.Pods
