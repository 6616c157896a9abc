import PodMachines.Proofs.Pods.CourseStep

/-! In every state that a run comes to, every call is on its course and every id leads to a record that was made
    with it. What a call was asked for and how it ended can then be read off its notes. -/

namespace PodMachines.Pods

/-- The notes of one call, in order. -/
def account (call : Nat) (log : List Note) : List Note :=
  log.filter (·.strand.call = call)

@[simp] theorem account_append (n : Nat) (log more : List Note) :
    account n (log ++ more) = account n log ++ account n more :=
  List.filter_append ..

theorem mem_account {n : Nat} {log : List Note} {e : Note} : e ∈ account n log ↔ e ∈ log ∧ e.strand.call = n := by
  simp [account]

theorem mem_account_entries {n : Nat} {log : List Note} {i : Option Nat} {d : Deed} :
    (i, d) ∈ (account n log).map Note.entry ↔ ∃ e ∈ log, e.strand.call = n ∧ e.record = i ∧ e.deed = d := by
  simp only [List.mem_map, mem_account, Note.entry, Prod.mk.injEq, and_assoc]

theorem of_getElem?_concat {β : Type} {l : List β} {x y : β} {i : Nat} (h : (l ++ [x])[i]? = some y) :
    l[i]? = some y ∨ i = l.length ∧ y = x := by
  obtain hi | rfl | hi := Nat.lt_trichotomy i l.length
  · exact .inl (List.getElem?_append_left hi ▸ h)
  · rw [List.getElem?_concat_length] at h
    exact .inr ⟨rfl, (Option.some.inj h).symm⟩
  · rw [List.getElem?_eq_none (by rw [List.length_append]; exact hi)] at h
    cases h

theorem of_getElem?_set {β : Type} {l : List β} {x y : β} {i k : Nat} (h : (l.set i x)[k]? = some y) :
    k = i ∧ y = x ∨ k ≠ i ∧ l[k]? = some y := by
  by_cases hik : i = k
  · subst hik
    rw [List.getElem?_set_self (by simpa using (List.getElem?_eq_some_iff.mp h).1)] at h
    exact .inl ⟨rfl, (Option.some.inj h).symm⟩
  · rw [List.getElem?_set_ne hik] at h
    exact .inr ⟨Ne.symm hik, h⟩

theorem account_map_self (now : Nat) (me : Strand) (i : Option Nat) (ds : List Deed) :
    account me.call (ds.map fun d => ⟨now, me, i, d⟩) = ds.map fun d => ⟨now, me, i, d⟩ :=
  List.filter_eq_self.mpr fun e he => by
    obtain ⟨d, -, rfl⟩ := List.mem_map.mp he
    exact decide_eq_true rfl

theorem account_map_ne {n : Nat} {me : Strand} (hn : me.call ≠ n) (now : Nat) (i : Option Nat) (ds : List Deed) :
    account n (ds.map fun d => ⟨now, me, i, d⟩) = [] :=
  List.filter_eq_nil_iff.mpr fun e he => by
    obtain ⟨d, -, rfl⟩ := List.mem_map.mp he
    exact fun h => hn (of_decide_eq_true h)

/-! ### The directory -/

def Deed.enrolls : Deed → Bool
  | .ends (.create ..) (.ok _) => true
  | _ => false

def Deed.removes : Deed → Bool
  | .ends (.remove _) (.ok ()) => true
  | _ => false

/-- What a step of a call does to the directory. -/
inductive Redirect (p : Running) (d : Table Nat) : List Deed → Table Nat → Prop
  | enroll {spec : Sandbox.Spec} {suffix : UInt32} (id : String) (i : Nat)
      (hp : p = ⟨.create spec suffix, .inside (.enroll id i)⟩) :
      Redirect p d [.ends (.create spec suffix) (.ok id)] (d.insert id i)
  | forget {name : String} (id : String) (i : Nat) (hp : p = ⟨.remove name, .inside (.forget id i)⟩) :
      Redirect p d [.ends (.remove name) (.ok ())] (if d.find? id = some i then d.erase id else d)
  | keep {ds : List Deed} (hds : ∀ e ∈ ds, e.enrolls = false ∧ e.removes = false) : Redirect p d ds d

section
variable {backend : String} {me : Strand} {s t : Store} {p q : Running} {ds : List Deed}

theorem keeps_of_any {ds : List Deed} (h : (ds.any fun e => e.enrolls || e.removes) = false) :
    ∀ e ∈ ds, e.enrolls = false ∧ e.removes = false := by
  simpa using h

theorem Check.Pace.keeps {check next : Check} (h : check.Pace me s ds next t) :
    t.directory = s.directory ∧ ∀ e ∈ ds, e.enrolls = false ∧ e.removes = false := by
  cases h <;> exact ⟨rfl, keeps_of_any rfl⟩

theorem Pace.redirect (h : Pace backend me s p ds q t) : Redirect p s.directory ds t.directory := by
  have status {id : String} (p : Point (.status id)) : ∀ e ∈ p.ending, e.enrolls = false ∧ e.removes = false := by
    cases p <;> exact keeps_of_any rfl
  have list {filter : Sandbox.Filter} (p : Point (.list filter)) :
      ∀ e ∈ p.ending, e.enrolls = false ∧ e.removes = false := by
    cases p <;> exact keeps_of_any rfl
  cases h with
  | enroll id i => exact .enroll id i rfl
  | @forget name id i =>
    have hd : (if s.directory.find? id = some i then { s.left with directory := s.directory.erase id }
        else s.left).directory = if s.directory.find? id = some i then s.directory.erase id else s.directory := by
      split <;> rfl
    rw [hd]
    exact .forget id i rfl
  | check h =>
    rw [h.keeps.1]
    exact .keep (List.forall_mem_append.mpr ⟨h.keeps.2, status _⟩)
  | gather hc h =>
    rw [h.keeps.1]
    exact .keep (List.forall_mem_append.mpr ⟨h.keeps.2, list _⟩)
  | listed => exact .keep (list _)
  | told hc result => obtain ⟨id, rfl⟩ | ⟨id, rfl⟩ | rfl := hc <;> exact .keep (keeps_of_any rfl)
  | _ => exact .keep (keeps_of_any rfl)

/-- What is found after a step was found before, or is what a create enrolls. -/
theorem Redirect.find?_cases {p : Running} {d d' : Table Nat} {ds : List Deed} (h : Redirect p d ds d') {id : String}
    {i : Nat} (hi : d'.find? id = some i) :
    d.find? id = some i ∨ ∃ spec suffix, p = ⟨.create spec suffix, .inside (.enroll id i)⟩ := by
  cases h with
  | @enroll spec suffix name j hp =>
    rw [Table.find?_insert] at hi
    by_cases hn : name = id
    · subst hn
      rw [if_pos rfl] at hi
      cases hi
      exact .inr ⟨spec, suffix, hp⟩
    · rw [if_neg hn] at hi
      exact .inl hi
  | forget name j hp =>
    by_cases hj : d.find? name = some j
    · rw [if_pos hj, Table.find?_erase] at hi
      by_cases hn : name = id
      · rw [if_pos hn] at hi
        cases hi
      · rw [if_neg hn] at hi
        exact .inl hi
    · rw [if_neg hj] at hi
      exact .inl hi
  | keep hds => exact .inl hi

/-- An id leads to a record that was made with it, after every step. -/
theorem Pace.placed (h : Pace backend me s p ds q t) (hd : s.Placed) {ns : List Note}
    (hc : Course backend s.origins ns p) : t.Placed := by
  intro id i hi
  obtain hi | ⟨spec, suffix, rfl⟩ := h.redirect.find?_cases hi
  · exact (hd id i hi).mono h.grows
  · cases hc with
    | create hes hc =>
      cases hc with
      | enrolling vm rest ho => exact ⟨_, h.grows _ _ ho, rfl⟩

end

/-! ### Every call is on its course -/

/-- Ids lead to records that were made with them, and every call is on its course. -/
structure System.Orderly (log : List Note) (s : System) : Prop where
  placed : s.store.Placed
  course : ∀ {n : Nat} {p : Running}, s.calls[n]? = some p → Course s.backend s.store.origins (account n log) p
  call_lt : ∀ n ∈ log, n.strand.call < s.calls.length

theorem Course.initial (backend : String) (o : Origins) (c : Call) : Course backend o [] ⟨c, .initial c⟩ := by
  cases c with
  | create spec suffix => exact .create rfl .starting
  | stop id => exact .stop rfl .starting
  | remove id => exact .remove rfl .starting
  | status id => exact .status rfl .starting
  | list filter => exact .list .starting
  | agent id => exact .agent rfl .starting
  | address id => exact .address rfl .starting
  | ids => exact .ids rfl .starting

theorem System.Orderly.account_eq_nil {log : List Note} {s : System} (h : s.Orderly log) {n : Nat}
    (hn : ¬n < s.calls.length) : account n log = [] :=
  List.filter_eq_nil_iff.mpr fun e he heq => hn (of_decide_eq_true heq ▸ h.call_lt e he)

theorem System.Orderly.goes {log notes : List Note} {s t : System} (h : s.Orderly log) (hg : s.Goes notes t) :
    t.Orderly (log ++ notes) := by
  cases hg with
  | start c =>
    rw [List.append_nil]
    refine ⟨h.placed, fun {n p} hp => ?_, fun e he => ?_⟩
    · simp only [start, List.getElem?_append] at hp
      by_cases hn : n < s.calls.length
      · rw [if_pos hn] at hp
        exact h.course hp
      · rw [if_neg hn] at hp
        obtain rfl := List.mem_singleton.mp (List.mem_of_getElem? hp)
        rw [h.account_eq_nil hn]
        exact .initial _ _ c
    · have := h.call_lt e he
      simp only [start, List.length_append, List.length_singleton]
      omega
  | @pace me p q ds st hp hq =>
    refine ⟨hq.placed h.placed (h.course hp), fun {n p'} hp' => ?_, fun e he => ?_⟩
    · rw [account_append]
      by_cases hn : me.call = n
      · subst hn
        simp only [after, List.getElem?_set_self (List.getElem?_eq_some_iff.mp hp).1, Option.some.injEq] at hp'
        subst hp'
        rw [account_map_self]
        exact .after hq h.placed (h.course hp)
      · simp only [after, List.getElem?_set_ne hn] at hp'
        rw [account_map_ne hn, List.append_nil]
        exact (h.course hp').mono hq.grows
    · simp only [after, List.length_set]
      rcases List.mem_append.mp he with he | he
      · exact h.call_lt e he
      · obtain ⟨d, -, rfl⟩ := List.mem_map.mp he
        exact (List.getElem?_eq_some_iff.mp hp).1
  | pass milliseconds =>
    rw [List.append_nil]
    exact ⟨h.placed, h.course, h.call_lt⟩
  | enableImageBoot =>
    rw [List.append_nil]
    exact ⟨h.placed, h.course, h.call_lt⟩

section
variable {backend : String} {catalog : Option String} {now : Nat} {log : List Note} {s : System}

theorem Run.orderly (h : Run (.new backend catalog now) log s) : s.Orderly log := by
  refine Run.induct (P := fun log s => s.Orderly log) ?_ ?_ h
  · refine ⟨?_, ?_, ?_⟩
    · intro id i hi
      cases hi
    · intro n p hp
      cases hp
    · intro n hn
      cases hn
  · intro log notes t u _ ih hg
    exact ih.goes hg

/-- What is noted is noted of a call, which is on its course. -/
theorem Run.course_of_mem (h : Run (.new backend catalog now) log s) {e : Note} (he : e ∈ log) :
    ∃ p, s.calls[e.strand.call]? = some p ∧ Course s.backend s.store.origins (account e.strand.call log) p ∧
      e ∈ account e.strand.call log := by
  have hp := List.getElem?_eq_getElem (h.orderly.call_lt e he)
  exact ⟨_, hp, h.orderly.course hp, mem_account.mpr ⟨he, rfl⟩⟩

end

/-! ### What is noted at a record -/

theorem mem_entries {i : Option Nat} {ds : List Deed} {e : Entry} : e ∈ entries i ds ↔ e.1 = i ∧ e.2 ∈ ds := by
  obtain ⟨j, d⟩ := e
  simp only [entries, List.mem_map, Prod.mk.injEq]
  constructor
  · rintro ⟨d', hd, rfl, rfl⟩
    exact ⟨rfl, hd⟩
  · rintro ⟨rfl, hd⟩
    exact ⟨d, hd, rfl, rfl⟩

section
variable {backend : String} {o : Origins} {es : List Entry} {e : Entry} {i : Nat}

theorem Creation.known {spec : Sandbox.Spec} {suffix : UInt32} {p : Point (.create spec suffix)}
    (h : Creation backend o spec suffix p es) (he : e ∈ es) (hi : e.1 = some i) : ∃ b, o i = some b := by
  cases h with
  | connected vm rest ho =>
    rcases List.mem_append.mp he with he | he <;> cases (mem_entries.mp he).1.symm.trans hi
    exact ⟨_, ho⟩
  | enrolling vm rest ho =>
    rcases List.mem_append.mp he with he | he <;> cases (mem_entries.mp he).1.symm.trans hi
    exact ⟨_, ho⟩
  | enrolled vm rest ho =>
    rcases List.mem_append.mp he with he | he <;> cases (mem_entries.mp he).1.symm.trans hi
    exact ⟨_, ho⟩
  | starting => cases he
  | _ => cases (mem_entries.mp he).1.symm.trans hi

theorem Stopping.known {id : String} {p : Point (.stop id)} (h : Stopping o id p es) (he : e ∈ es)
    (hi : e.1 = some i) : ∃ b, o i = some b := by
  cases h with
  | missing => cases (mem_entries.mp he).1.symm.trans hi
  | refused ho =>
    obtain ⟨b, hb, -⟩ := ho
    cases (mem_entries.mp he).1.symm.trans hi
    exact ⟨b, hb⟩
  | stopped ho =>
    obtain ⟨b, hb, -⟩ := ho
    cases (mem_entries.mp he).1.symm.trans hi
    exact ⟨b, hb⟩
  | _ => cases he

theorem Removing.known {id : String} {p : Point (.remove id)} (h : Removing o id p es) (he : e ∈ es)
    (hi : e.1 = some i) : ∃ b, o i = some b := by
  cases h with
  | missing => cases (mem_entries.mp he).1.symm.trans hi
  | refused ho =>
    obtain ⟨b, hb, -⟩ := ho
    cases (mem_entries.mp he).1.symm.trans hi
    exact ⟨b, hb⟩
  | starting => cases he
  | looking => cases he
  | arriving ho => cases he
  | queued ho => cases he
  | _ =>
    cases (mem_entries.mp he).1.symm.trans hi
    exact ⟨_, ‹_›⟩

theorem Asking.known {id : String} {p : Point (.status id)} (h : Asking o id p es) (he : e ∈ es)
    (hi : e.1 = some i) : ∃ b, o i = some b := by
  cases h with
  | missing => cases (mem_entries.mp he).1.symm.trans hi
  | starting => cases he
  | looking => cases he
  | _ =>
    cases (mem_entries.mp he).1.symm.trans hi
    exact ⟨_, ‹_›⟩

theorem Listing.known {filter : Sandbox.Filter} {p : Point (.list filter)} {ns : List Note}
    (h : Listing o filter p ns) {n : Note} (hn : n ∈ ns) (hi : n.record = some i) : ∃ b, o i = some b := by
  cases h with
  | starting => cases hn
  | looking => cases hn
  | gathering h =>
    obtain ⟨j, hj, hr⟩ := h.record n hn
    exact h.known (Option.some.inj (hi.symm.trans hr) ▸ List.mem_of_getElem? hj)
  | gathered h hj hd =>
    rcases List.mem_append.mp hn with hn | hn
    · obtain ⟨j, hj, hr⟩ := h.record n hn
      exact h.known (Option.some.inj (hi.symm.trans hr) ▸ List.mem_of_getElem? hj)
    · obtain rfl := List.mem_singleton.mp hn
      exact h.known (hj i hi)

theorem Telling.known {c : Call} {p : Point c} (h : Telling c p es) (he : e ∈ es) : e.1 = none := by
  cases h with
  | told result => exact (mem_entries.mp he).1
  | _ => cases he

theorem Course.known {ns : List Note} {p : Running} (h : Course backend o ns p) {n : Note} (hn : n ∈ ns)
    (hi : n.record = some i) : ∃ b, o i = some b := by
  have he : n.entry ∈ ns.map Note.entry := List.mem_map_of_mem hn
  cases h with
  | create hes h => exact h.known (hes ▸ he) hi
  | stop hes h => exact h.known (hes ▸ he) hi
  | remove hes h => exact h.known (hes ▸ he) hi
  | status hes h => exact h.known (hes ▸ he) hi
  | list h => exact h.known hn hi
  | agent hes h => cases (h.known (hes ▸ he)).symm.trans hi
  | address hes h => cases (h.known (hes ▸ he)).symm.trans hi
  | ids hes h => cases (h.known (hes ▸ he)).symm.trans hi

end

theorem Run.chronicle_eq_nil {backend : String} {catalog : Option String} {now : Nat} {log : List Note} {s : System}
    (h : Run (.new backend catalog now) log s) {i : Nat} (hi : s.store.records.length ≤ i) : chronicle i log = [] := by
  refine List.filter_eq_nil_iff.mpr fun e he heq => ?_
  obtain ⟨p, -, hc, hmem⟩ := h.course_of_mem he
  obtain ⟨b, hb⟩ := hc.known hmem (of_decide_eq_true heq)
  simp only [Store.origins, List.getElem?_eq_none hi] at hb
  cases hb

/-! ### What is noted of one call -/

/-- What holds of a call at its start and is kept by its steps holds of it with all its notes. -/
theorem Run.call_induct {Q : List Note → Running → Prop} (initial : ∀ c, Q [] ⟨c, .initial c⟩)
    (step : ∀ {backend me s t p q ds ns}, Pace backend me s p ds q t → Q ns p →
      Q (ns ++ ds.map fun d => ⟨s.now, me, (p.point.record? me).or (q.point.record? me), d⟩) q)
    {backend : String} {catalog : Option String} {now : Nat} {log : List Note} {s : System}
    (h : Run (.new backend catalog now) log s) {n : Nat} {p : Running} (hp : s.calls[n]? = some p) :
    Q (account n log) p := by
  refine Run.induct (P := fun log s => ∀ n p, s.calls[n]? = some p → Q (account n log) p) ?_ ?_ h n p hp
  · intro n p hp
    cases hp
  · intro log notes t u hrun ih hg n p hp
    cases hg with
    | start c =>
      rw [List.append_nil]
      simp only [System.start, List.getElem?_append] at hp
      by_cases hn : n < t.calls.length
      · rw [if_pos hn] at hp
        exact ih n p hp
      · rw [if_neg hn] at hp
        obtain rfl := List.mem_singleton.mp (List.mem_of_getElem? hp)
        rw [hrun.orderly.account_eq_nil hn]
        exact initial c
    | @pace me p₀ q ds st hp₀ hq =>
      rw [account_append]
      by_cases hn : me.call = n
      · subst hn
        simp only [System.after, List.getElem?_set_self (List.getElem?_eq_some_iff.mp hp₀).1, Option.some.injEq] at hp
        subst hp
        rw [account_map_self]
        exact step hq (ih _ p₀ hp₀)
      · simp only [System.after, List.getElem?_set_ne hn] at hp
        rw [account_map_ne hn, List.append_nil]
        exact ih n p hp
    | pass milliseconds =>
      rw [List.append_nil]
      exact ih n p hp
    | enableImageBoot =>
      rw [List.append_nil]
      exact ih n p hp

def Call.asks : Call → Request → Bool
  | .create .., .backend (.provision _) | .create .., .backend (.addresses _) | .create .., .backend (.destroy _) => true
  | .create .., .connect _ => true
  | .remove _, .backend (.destroy _) | .remove _, .close _ => true
  | .status _, .backend (.state _) | .list _, .backend (.state _) => true
  | _, _ => false

/-- What may be noted of a call. -/
def Call.may : Call → Deed → Bool
  | c, .hears request _ | c, .asks request => c.asks request
  | .stop _, .locks | .remove _, .locks | .status _, .locks | .list _, .locks => true
  | .status _, .reports _ | .list _, .reports _ => true
  | c, .ends c' _ => c' = c
  | _, _ => false

def Deed.isEnd : Deed → Bool
  | .ends .. => true
  | _ => false

theorem mem_ending {c c' : Call} {p : Point c} {result : c'.Result} :
    Deed.ends c' result ∈ p.ending ↔ (⟨c, p⟩ : Running) = ⟨c', .finished result⟩ := by
  constructor
  · intro h
    cases p with
    | finished result =>
      cases List.mem_singleton.mp h
      rfl
    | _ => cases h
  · intro h
    cases h
    exact List.mem_singleton_self _

theorem filter_isEnd_ending {c : Call} (p : Point c) : p.ending.filter Deed.isEnd = p.ending := by
  cases p <;> rfl

theorem may_ending {c : Call} (p : Point c) : ∀ d ∈ p.ending, c.may d = true := by
  cases p <;> simp [Point.ending, Call.may]

section
variable {backend : String} {me : Strand} {s t : Store} {p q : Running} {ds : List Deed}

theorem Check.Pace.may {check next : Check} (h : check.Pace me s ds next t) {c : Call}
    (hc : (∃ id, c = .status id) ∨ ∃ filter, c = .list filter) : ∀ d ∈ ds, c.may d = true := by
  obtain ⟨id, rfl⟩ | ⟨filter, rfl⟩ := hc <;> cases h <;> simp [Call.may, Call.asks]

theorem Pace.may (h : Pace backend me s p ds q t) : q.call = p.call ∧ ∀ d ∈ ds, p.call.may d = true := by
  cases h with
  | listed => exact ⟨rfl, may_ending _⟩
  | @check id check next ds t h =>
    refine ⟨rfl, fun d hd => ?_⟩
    rcases List.mem_append.mp hd with hd | hd
    · exact h.may (.inl ⟨id, rfl⟩) d hd
    · exact may_ending _ d hd
  | @gather filter checks check next ds t hc h =>
    refine ⟨rfl, fun d hd => ?_⟩
    rcases List.mem_append.mp hd with hd | hd
    · exact h.may (.inr ⟨filter, rfl⟩) d hd
    · exact may_ending _ d hd
  | _ => exact ⟨rfl, by simp [Call.may, Call.asks]⟩

theorem Pace.ending (h : Pace backend me s p ds q t) : ds.filter Deed.isEnd = q.point.ending := by
  cases h with
  | listed => exact filter_isEnd_ending _
  | @check id check next ds t h =>
    have : ds.filter Deed.isEnd = [] := by cases h <;> rfl
    rw [List.filter_append, this, filter_isEnd_ending]
    rfl
  | @gather filter checks check next ds t hc h =>
    have : ds.filter Deed.isEnd = [] := by cases h <;> rfl
    rw [List.filter_append, this, filter_isEnd_ending]
    rfl
  | _ => rfl

theorem Pace.ending_eq_nil (h : Pace backend me s p ds q t) : p.point.ending = [] := by
  cases h <;> rfl

end

theorem System.result?_eq_some {s : System} {n : Nat} {c : Call} {result : c.Result} :
    s.result? n c = some result ↔ s.calls[n]? = some ⟨c, .finished result⟩ := by
  unfold result?
  constructor
  · intro h
    split at h
    · rename_i call result' hp
      split at h
      · rename_i hc
        subst hc
        cases h
        exact hp
      · cases h
    · cases h
  · intro h
    simp [h]

section
variable {backend : String} {catalog : Option String} {now : Nat} {log : List Note} {s : System}

theorem Run.may (h : Run (.new backend catalog now) log s) {n : Nat} {p : Running} (hp : s.calls[n]? = some p) :
    ∀ e ∈ account n log, p.call.may e.deed = true := by
  refine h.call_induct (Q := fun ns p => ∀ e ∈ ns, p.call.may e.deed = true) (fun c e he => nomatch he) ?_ hp
  intro backend me s t p q ds ns hq ih e he
  rw [hq.may.1]
  rcases List.mem_append.mp he with he | he
  · exact ih e he
  · obtain ⟨d, hd, rfl⟩ := List.mem_map.mp he
    exact hq.may.2 d hd

theorem Run.ending (h : Run (.new backend catalog now) log s) {n : Nat} {p : Running} (hp : s.calls[n]? = some p) :
    ((account n log).map (·.deed)).filter Deed.isEnd = p.point.ending := by
  refine h.call_induct (Q := fun ns p => (ns.map (·.deed)).filter Deed.isEnd = p.point.ending) ?_ ?_ hp
  · intro c
    cases c <;> rfl
  · intro backend me s t p q ds ns hq ih
    rw [List.map_append, List.filter_append, ih, hq.ending_eq_nil, List.map_map, List.nil_append]
    exact (congrArg _ (List.map_id _)).trans hq.ending

theorem Run.result_iff (h : Run (.new backend catalog now) log s) {n : Nat} {c : Call} {result : c.Result} :
    s.result? n c = some result ↔ ∃ e ∈ log, e.strand.call = n ∧ e.deed = .ends c result := by
  rw [System.result?_eq_some]
  constructor
  · intro hp
    have hmem : Deed.ends c result ∈ ((account n log).map (·.deed)).filter Deed.isEnd :=
      h.ending hp ▸ mem_ending.mpr rfl
    obtain ⟨e, he, hd⟩ := List.mem_map.mp (List.mem_filter.mp hmem).1
    exact ⟨e, (mem_account.mp he).1, (mem_account.mp he).2, hd⟩
  · rintro ⟨e, he, rfl, hd⟩
    obtain ⟨p, hp, -, hmem⟩ := h.course_of_mem he
    have hend : Deed.ends c result ∈ p.point.ending := by
      rw [← h.ending hp]
      exact List.mem_filter.mpr ⟨List.mem_map.mpr ⟨e, hmem, hd⟩, rfl⟩
    rw [hp]
    exact congrArg some (mem_ending.mp hend)

end

end PodMachines.Pods
