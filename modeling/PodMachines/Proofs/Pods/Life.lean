import PodMachines.Proofs.Pods.Account
import PodMachines.Proofs.Pods.Exclusion

/-! The life of a record: it is made, strands wait for its lock and take turns at it one after the other, and time
    passes. Main statement: whatever calls run side by side, every record has such a life, and its chronicle tells
    it. What is proved of lives needs no word about strands that run at the same time. -/

namespace PodMachines.Pods

/-- The life of a record so far: the time, its chronicle, the record, and who works at it. -/
inductive Life (i : Nat) : Nat → List Note → Record → Option (Nat × Work) → Prop
  | born (me : Strand) (now : Nat) (spec : Sandbox.Spec) (machine : Machine.Handle) (address : Address)
      (agent : Connection) :
      Life i now [⟨now, me, some i, .hears (.connect address) (.ok agent)⟩]
        (.new spec machine address agent now) none
  | later {now next : Nat} {ns : List Note} {r : Record} {w : Option (Nat × Work)} (h : Life i now ns r w)
      (hn : now ≤ next) : Life i next ns r w
  | request {now : Nat} {ns : List Note} {r : Record} {w : Option (Nat × Work)} (h : Life i now ns r w)
      (me : Strand) : Life i now ns { r with lock := r.lock.request me } w
  | pass {now : Nat} {ns : List Note} {r : Record} {w : Option (Nat × Work)} (h : Life i now ns r w) (me : Strand)
      {ds : List Deed} (hd : Passing ds) : Life i now (ns ++ ds.map fun d => ⟨now, me, some i, d⟩) r w
  | turn {now : Nat} {ns : List Note} {r r' : Record} {me : Strand} {w w' : Option Work} {ds : List Deed}
      (h : Life i now ns r (w.map (me.call, ·))) (ht : Turn me now r w ds r' w') :
      Life i now (ns ++ ds.map fun d => ⟨now, me, some i, d⟩) r' (w'.map (me.call, ·))

theorem chronicle_map_self (now : Nat) (me : Strand) (i : Nat) (ds : List Deed) :
    chronicle i (ds.map fun d => ⟨now, me, some i, d⟩) = ds.map fun d => ⟨now, me, some i, d⟩ :=
  List.filter_eq_self.mpr fun e he => by
    obtain ⟨d, -, rfl⟩ := List.mem_map.mp he
    exact decide_eq_true rfl

theorem chronicle_map_ne {i : Nat} {j : Option Nat} (hj : j ≠ some i) (now : Nat) (me : Strand) (ds : List Deed) :
    chronicle i (ds.map fun d => ⟨now, me, j, d⟩) = [] :=
  List.filter_eq_nil_iff.mpr fun e he => by
    obtain ⟨d, -, rfl⟩ := List.mem_map.mp he
    exact fun h => hj (of_decide_eq_true h)

namespace System

/-- Every record has a life. -/
def Lived (log : List Note) (s : System) : Prop :=
  ∀ i r, s.store.records[i]? = some r → ∃ w, s.Sits i w ∧ Life i s.store.now (chronicle i log) r w

variable {s : System} {log : List Note}

theorem Lived.after {me : Strand} {p q : Running} {ds : List Deed} {st : Store} (hl : s.Lived log)
    (hx : s.Exclusive) (hnil : ∀ i, s.store.records.length ≤ i → chronicle i log = [])
    (hp : s.calls[me.call]? = some p) (hq : Pace s.backend me s.store p ds q st) :
    (s.after me q st).Lived
      (log ++ ds.map fun d => ⟨s.store.now, me, (p.point.record? me).or (q.point.record? me), d⟩) := by
  intro i r hr
  rw [chronicle_append, show (s.after me q st).store.now = s.store.now from hq.now_eq]
  cases hq.touch with
  | away hi ht hpw hqw =>
    obtain ⟨w, hs, h⟩ := hl i r (ht ▸ hr)
    refine ⟨w, hs.after_of_none hp hq hpw hqw, ?_⟩
    rcases hi with hi | rfl
    · rw [hi, chronicle_map_ne (by simp), List.append_nil]
      exact h
    · rw [List.map_nil, chronicle_nil, List.append_nil]
      exact h
  | @pass j hi hd ht hpw hqw =>
    obtain ⟨w, hs, h⟩ := hl i r (ht ▸ hr)
    refine ⟨w, hs.after_of_none hp hq hpw hqw, ?_⟩
    rw [hi]
    by_cases hij : j = i
    · subst hij
      rw [chronicle_map_self]
      exact h.pass me hd
    · rw [chronicle_map_ne (by simp [hij]), List.append_nil]
      exact h
  | @born hi spec machine address agent hd ht hpw hqw =>
    rw [hi]
    have hr' : (s.store.records ++ [Record.new spec machine address agent s.store.now])[i]? = some r := ht ▸ hr
    rw [List.getElem?_append] at hr'
    by_cases hlt : i < s.store.records.length
    · rw [if_pos hlt] at hr'
      obtain ⟨w, hs, h⟩ := hl i r hr'
      refine ⟨w, hs.after_of_none hp hq hpw hqw, ?_⟩
      rw [chronicle_map_ne (by simp; omega), List.append_nil]
      exact h
    · rw [if_neg hlt] at hr'
      obtain ⟨hn, hr'⟩ := List.getElem?_eq_some_iff.mp hr'
      obtain rfl : i = s.store.records.length := by
        simp only [List.length_singleton] at hn
        omega
      simp only [Nat.sub_self, List.getElem_cons_zero] at hr'
      subst hr'
      -- Nobody works at a record that is not there yet.
      have hs : s.Sits s.store.records.length none := by
        intro n x
        refine ⟨fun h => (nomatch h), ?_⟩
        rintro ⟨k, -, hk⟩
        obtain ⟨r, -, hr, -⟩ := hx k _ x hk
        rw [List.getElem?_eq_none (Nat.le_refl _)] at hr
        cases hr
      refine ⟨none, hs.after_of_none hp hq hpw hqw, ?_⟩
      rw [hnil _ (Nat.le_refl _), hd, chronicle_map_self]
      exact .born me _ spec machine address agent
  | @request j hd ht hpw hqw =>
    subst hd
    subst ht
    rw [List.map_nil, chronicle_nil, List.append_nil]
    have hr' : (s.store.requestLock j me).records[i]? = some r := hr
    simp only [Store.requestLock, Store.modify, List.getElem?_modify] at hr'
    obtain ⟨r₀, hr₀, rfl⟩ := Option.map_eq_some_iff.mp hr'
    obtain ⟨w, hs, h⟩ := hl i r₀ hr₀
    refine ⟨w, hs.after_of_none hp hq hpw hqw, ?_⟩
    by_cases hij : j = i
    · rw [if_pos hij]
      exact h.request me
    · rw [if_neg hij]
      exact h
  | @turn j hi r₀ r' hr₀ x x' ht htr hpw hqw =>
    rw [hi]
    by_cases hij : j = i
    · subst hij
      have hr' : (s.store.records.set j r')[j]? = some r := htr ▸ hr
      rw [List.getElem?_set_self (List.getElem?_eq_some_iff.mp hr₀).1] at hr'
      cases hr'
      obtain ⟨w, hs, h⟩ := hl j r₀ hr₀
      obtain rfl := hs.unique (hx.sits_of_turn hp hq hr₀ ht hpw)
      refine ⟨_, hx.sits_after_turn hp hq hr₀ ht hpw hqw, ?_⟩
      rw [chronicle_map_self]
      exact h.turn ht
    · have hr' : (s.store.records.set j r')[i]? = some r := htr ▸ hr
      rw [List.getElem?_set_ne hij] at hr'
      obtain ⟨w, hs, h⟩ := hl i r hr'
      refine ⟨w, hs.after_of_ne hp hq hij hpw hqw, ?_⟩
      rw [chronicle_map_ne (by simp [hij]), List.append_nil]
      exact h

end System

section
variable {backend : String} {catalog : Option String} {now : Nat} {log : List Note} {s : System}

theorem Run.lived (h : Run (.new backend catalog now) log s) : s.Lived log := by
  refine Run.induct (P := fun log s => s.Lived log) ?_ ?_ h
  · intro i r hr
    cases hr
  · intro log notes t u hrun ih hg
    cases hg with
    | start c =>
      intro i r hr
      obtain ⟨w, hs, h⟩ := ih i r hr
      rw [List.append_nil]
      exact ⟨w, System.sits_start c hs, h⟩
    | pace hp hq => exact ih.after hrun.exclusive (fun i hi => hrun.chronicle_eq_nil hi) hp hq
    | pass milliseconds =>
      intro i r hr
      obtain ⟨w, hs, h⟩ := ih i r hr
      rw [List.append_nil]
      exact ⟨w, hs.congr fun _ _ => Iff.rfl, h.later (Nat.le_add_right _ _)⟩
    | enableImageBoot =>
      intro i r hr
      obtain ⟨w, hs, h⟩ := ih i r hr
      rw [List.append_nil]
      exact ⟨w, hs.congr fun _ _ => Iff.rfl, h⟩

theorem Run.life (h : Run (.new backend catalog now) log s) {i : Nat} {r : Record}
    (hr : s.store.records[i]? = some r) : ∃ w, s.Sits i w ∧ Life i s.store.now (chronicle i log) r w :=
  h.lived i r hr

theorem System.Idle.sits (h : s.Idle) {i : Nat} {w : Option (Nat × Work)} (hs : s.Sits i w) : w = none := by
  cases w with
  | none => rfl
  | some x =>
    obtain ⟨n, x⟩ := x
    obtain ⟨me, -, hw⟩ := (hs n x).mp rfl
    obtain ⟨p, hp, hw⟩ := Option.bind_eq_some_iff.mp hw
    obtain ⟨result, hres⟩ := h p (List.mem_of_getElem? hp)
    simp only [Running.work?, hres, Point.check?, Option.bind_none] at hw
    cases hw

end

/-! ### Where strands work -/

/-- Where the call of a strand stands that works at a record. -/
inductive Standing (me : Strand) (i : Nat) : Work → Running → Prop
  | status (id : String) : Standing me i .querying ⟨.status id, .checking (.refreshing i)⟩
  | list (filter : Sandbox.Filter) {checks : List Check} (hc : checks[me.part]? = some (.refreshing i)) :
      Standing me i .querying ⟨.list filter, .gathering checks⟩
  | destroying (id : String) : Standing me i .destroying ⟨.remove id, .destroying i⟩
  | closing (id : String) : Standing me i .closing ⟨.remove id, .closing i⟩

theorem Check.work?_eq_some {check : Check} {i : Nat} {x : Work} :
    check.work? = some (i, x) ↔ check = .refreshing i ∧ x = .querying := by
  constructor
  · intro h
    cases check <;> cases h
    exact ⟨rfl, rfl⟩
  · rintro ⟨rfl, rfl⟩
    rfl

theorem Course.standing {backend : String} {o : Origins} {ns : List Note} {p : Running} {me : Strand} {i : Nat}
    {x : Work} (h : Course backend o ns p) (hw : p.work? me = some (i, x)) : Standing me i x p := by
  cases h with
  | create hes h => cases h <;> cases hw
  | stop hes h => cases h <;> cases hw
  | @remove id _ _ hes h =>
    cases h with
    | destroying hb hid =>
      cases hw
      exact .destroying id
    | closing hb hid =>
      cases hw
      exact .closing id
    | _ => cases hw
  | @status id _ _ hes h =>
    cases h with
    | checking hb hid hcourse hn =>
      obtain ⟨rfl, rfl⟩ := Check.work?_eq_some.mp hw
      exact .status id
    | _ => cases hw
  | @list filter _ h =>
    cases h with
    | gathering h =>
      obtain ⟨check, hc, hw⟩ := Option.bind_eq_some_iff.mp hw
      obtain ⟨rfl, rfl⟩ := Check.work?_eq_some.mp hw
      exact .list filter hc
    | _ => cases hw
  | agent hes h => cases h <;> cases hw
  | address hes h => cases h <;> cases hw
  | ids hes h => cases h <;> cases hw

/-- A strand that works at a record stands where its work is. -/
theorem Run.standing {backend : String} {catalog : Option String} {now : Nat} {log : List Note} {s : System}
    (h : Run (.new backend catalog now) log s) {me : Strand} {i : Nat} {x : Work} (hw : s.work? me = some (i, x)) :
    ∃ p, s.calls[me.call]? = some p ∧ Standing me i x p := by
  obtain ⟨p, hp, hw⟩ := Option.bind_eq_some_iff.mp hw
  exact ⟨p, hp, (h.orderly.course hp).standing hw⟩

theorem System.answer_eq_some {s : System} {me : Strand} {p : Running} {request : Request} {a : request.Answer}
    {next : Point p.call × Store} (hp : s.calls[me.call]? = some p)
    (hr : p.point.request? me s.store = some request)
    (ha : p.point.answer s.backend me s.store request a = some next) :
    s.answer me request a = some (s.place me.call next) := by
  have hq : s.request? me = some request := by
    rw [request?, hp]
    exact hr
  rw [answer, if_pos hq, hp]
  simp only [ha, Option.map_some]

end PodMachines.Pods
