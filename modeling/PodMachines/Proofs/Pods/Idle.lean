import Mathlib.Algebra.Ring.Nat
import PodMachines.Proofs.Pods.Directory
import PodMachines.Proofs.Pods.Enrollment
import PodMachines.Proofs.Pods.Glance
import PodMachines.Proofs.Pods.Removal

/-! Who is where. The guard counts the calls in the directory, and a record's lock the strands that have it or wait for
    it. Main statement: while no call is in progress nobody is in the directory, every lock is free, and no sandbox
    that the directory leads to is removed. -/

namespace PodMachines.Pods

def Guard.visitors : Guard → Nat
  | .free => 0
  | .readers others => others + 1
  | .writer => 1

/-- Who has the lock or waits for it. -/
def Lock.strands (l : Lock) : List Strand :=
  l.holder.toList ++ l.waiting

/-- A lock that nobody has nobody waits for, and only calls that were started have it or wait for it. -/
structure Lock.Fair (calls : Nat) (l : Lock) : Prop where
  served : l.holder = none → l.waiting = []
  begun : ∀ me ∈ l.strands, me.call < calls

/-- Whether a check has a record's lock or waits for it. -/
def Check.queues (i : Nat) : Check → Bool
  | .queued j | .refreshing j => j = i
  | _ => false

/-- How many strands of a call have a record's lock or wait for it. -/
def Running.queueing (p : Running) (i : Nat) : Nat :=
  match p.point with
  | .queued j | .destroying j | .closing j => (decide (j = i)).toNat
  | .checking check => (check.queues i).toNat
  | .gathering checks => checks.countP (Check.queues i)
  | _ => 0

/-! ### Locks -/

namespace Lock
variable {l : Lock} {me : Strand} {n m : Nat}

theorem fair_free (n : Nat) : free.Fair n :=
  ⟨fun _ => rfl, fun _ h => absurd h List.not_mem_nil⟩

theorem Fair.mono (h : l.Fair n) (hm : n ≤ m) : l.Fair m :=
  ⟨h.served, fun me hme => Nat.lt_of_lt_of_le (h.begun me hme) hm⟩

theorem mem_strands_request {you : Strand} (h : you ∈ (l.request me).strands) : you ∈ l.strands ∨ you = me := by
  obtain ⟨holder, waiting⟩ := l
  cases holder with
  | none =>
    simp only [request, strands, Option.toList_some, List.mem_append, List.mem_singleton] at h
    exact h.elim .inr fun h => .inl (List.mem_append_right _ h)
  | some other =>
    simp only [request, strands, Option.toList_some, List.mem_append, List.mem_singleton] at h ⊢
    rcases h with h | h | h
    · exact .inl (.inl h)
    · exact .inl (.inr h)
    · exact .inr h

theorem Fair.request (h : l.Fair n) (hme : me.call < n) : (l.request me).Fair n where
  served hn := by
    obtain ⟨holder, waiting⟩ := l
    cases holder <;> cases hn
  begun you hyou := by
    rcases mem_strands_request hyou with hyou | rfl
    · exact h.begun you hyou
    · exact hme

theorem mem_strands_release {you : Strand} (h : you ∈ l.release.strands) : you ∈ l.strands := by
  obtain ⟨holder, waiting⟩ := l
  cases waiting with
  | nil => exact absurd h List.not_mem_nil
  | cons next rest => exact List.mem_append_right _ h

theorem Fair.release (h : l.Fair n) : l.release.Fair n where
  served hn := by
    obtain ⟨holder, waiting⟩ := l
    cases waiting with
    | nil => rfl
    | cons next rest => cases hn
  begun you hyou := h.begun you (mem_strands_release hyou)

theorem length_request : (l.request me).strands.length = l.strands.length + 1 := by
  obtain ⟨holder, waiting⟩ := l
  cases holder with
  | none => simp [request, strands]
  | some other => simp [request, strands, Nat.add_assoc]

theorem Fair.length_release (h : l.Fair n) : l.release.strands.length = l.strands.length - 1 := by
  obtain ⟨holder, waiting⟩ := l
  cases holder with
  | none =>
    obtain rfl : waiting = [] := h.served rfl
    rfl
  | some other => cases waiting <;> simp [Lock.release, strands, free]

theorem eq_free_of_length (h : l.strands.length = 0) : l = free := by
  obtain ⟨holder, waiting⟩ := l
  cases holder with
  | none =>
    obtain rfl : waiting = [] := List.length_eq_zero_iff.mp h
    rfl
  | some other => simp [strands] at h

/-- Who asks for a fair lock that nobody has gets it, and leaves it free. -/
theorem Fair.request_of_holder (h : l.Fair n) (hn : l.holder = none) (me : Strand) :
    l = free ∧ l.request me = ⟨some me, []⟩ := by
  obtain ⟨holder, waiting⟩ := l
  obtain rfl : holder = none := hn
  obtain rfl : waiting = [] := h.served rfl
  exact ⟨rfl, rfl⟩

end Lock

/-! ### What a step does to the locks -/

/-- What a step does to the locks, and where it takes its call: it queues away from them, makes a record, asks for a
    lock, or lets one go. -/
inductive Shift (me : Strand) (s : Store) (p q : Running) (t : Store) : Prop
  | away (ht : t.records = s.records) (hk : ∀ i, q.queueing i = p.queueing i)
  | born {r : Record} (hl : r.lock = .free) (ht : t.records = s.records ++ [r]) (hk : ∀ i, q.queueing i = p.queueing i)
  | ask {j : Nat} (ht : t = s.requestLock j me) (hk : ∀ i, q.queueing i = p.queueing i + (decide (j = i)).toNat)
  | letGo {j : Nat} {r r' : Record} (hr : s.records[j]? = some r) (hl : r'.lock = r.lock.release)
      (ht : t.records = s.records.set j r') (hk : ∀ i, p.queueing i = q.queueing i + (decide (j = i)).toNat)

theorem Record.downgraded_lock (r : Record) : r.downgraded.lock = r.lock := by
  unfold downgraded
  split <;> rfl

theorem Record.downgraded_released_lock (r : Record) : r.downgraded.released.lock = r.lock.release := by
  rw [← r.downgraded_lock]
  rfl

theorem queueing_ofCheck (id : String) (check : Check) (i : Nat) :
    Running.queueing ⟨.status id, Point.ofCheck id check⟩ i = (check.queues i).toNat := by
  cases check with
  | settled status => cases status <;> rfl
  | _ => rfl

theorem countP_settled (reports : List (Option Sandbox.Status)) (i : Nat) :
    (reports.map Check.settled).countP (Check.queues i) = 0 := by
  rw [List.countP_eq_zero]
  intro check hcheck
  obtain ⟨report, -, rfl⟩ := List.mem_map.mp hcheck
  exact nofun

theorem queueing_ofChecks (filter : Sandbox.Filter) (checks : List Check) (i : Nat) :
    Running.queueing ⟨.list filter, Point.ofChecks filter checks⟩ i = checks.countP (Check.queues i) := by
  obtain ⟨reports, rfl, h⟩ | ⟨-, h⟩ := Point.ofChecks_cases filter checks
  · rw [h, countP_settled]
    rfl
  · rw [h]
    rfl

theorem countP_set {β : Type} {f : β → Bool} {l : List β} {k : Nat} {x : β} (h : l[k]? = some x) (y : β) :
    (l.set k y).countP f + (f x).toNat = l.countP f + (f y).toNat := by
  induction l generalizing k with
  | nil => cases h
  | cons z l ih =>
    cases k with
    | zero =>
      cases h
      cases hx : f x <;> cases hy : f y <;> simp [hx, hy]
    | succ k =>
      have := ih h
      cases hz : f z <;> simp [hz] <;> omega

theorem sum_set {l : List Nat} {k x : Nat} (h : l[k]? = some x) (y : Nat) : (l.set k y).sum + x = l.sum + y := by
  induction l generalizing k with
  | nil => cases h
  | cons z l ih =>
    cases k with
    | zero =>
      cases h
      simp only [List.set_cons_zero, List.sum_cons]
      omega
    | succ k =>
      have := ih h
      simp only [List.set_cons_succ, List.sum_cons]
      omega

section
variable {backend : String} {me : Strand} {s t : Store} {p q : Running} {ds : List Deed}

theorem Check.Pace.shift {check next : Check} (h : check.Pace me s ds next t)
    (hk : ∀ i, q.queueing i + (check.queues i).toNat = p.queueing i + (next.queues i).toNat) : Shift me s p q t := by
  cases h with
  | arrive j => exact .ask rfl hk
  | refuse hr hl hd => exact .letGo hr rfl rfl fun i => (hk i).symm
  | fresh hr hl hd hf => exact .letGo hr (Record.downgraded_released_lock _) rfl fun i => (hk i).symm
  | query hr hl hd hf => exact .away rfl fun i => Nat.add_right_cancel (hk i)
  | @sample i r hr x =>
    exact .letGo hr (Record.downgraded_released_lock (r.sampled x s.now)) rfl fun i => (hk i).symm
  | fail hr f => exact .letGo hr (Record.downgraded_released_lock _) rfl fun i => (hk i).symm

theorem Pace.shift (h : Pace backend me s p ds q t) : Shift me s p q t := by
  cases h with
  | connected agent => exact .born rfl rfl fun i => rfl
  | forget id i =>
    refine .away ?_ fun i => rfl
    split <;> rfl
  | listed =>
    refine .away rfl fun i => ?_
    rw [queueing_ofChecks, List.countP_eq_zero.mpr]
    · rfl
    · intro check hcheck
      obtain ⟨j, -, rfl⟩ := List.mem_map.mp hcheck
      exact nofun
  | arrive j => exact .ask rfl fun i => (Nat.zero_add _).symm
  | stopRefused hr hl hd => exact .letGo hr rfl rfl fun i => (Nat.zero_add _).symm
  | stopped hr hl hd => exact .letGo hr rfl rfl fun i => (Nat.zero_add _).symm
  | removeRefused hr hl hd => exact .letGo hr rfl rfl fun i => (Nat.zero_add _).symm
  | undestroyed hr f => exact .letGo hr rfl rfl fun i => (Nat.zero_add _).symm
  | closed hr => exact .letGo hr rfl rfl fun i => (Nat.zero_add _).symm
  | check h =>
    refine h.shift fun i => ?_
    rw [queueing_ofCheck, Nat.add_comm]
    rfl
  | gather hc h =>
    refine h.shift fun i => ?_
    rw [queueing_ofChecks]
    exact countP_set hc _
  | _ => exact .away rfl fun i => rfl

end

theorem Course.known_of_queueing {backend : String} {o : Origins} {ns : List Note} {p : Running} {i : Nat}
    (h : Course backend o ns p) (hk : p.queueing i ≠ 0) : ∃ b, o i = some b := by
  have at_record {j : Nat} {b : Origin} (hb : o j = some b) (hk : (decide (j = i)).toNat ≠ 0) : ∃ b, o i = some b := by
    by_cases hji : j = i
    · exact ⟨b, hji ▸ hb⟩
    · exact absurd (by rw [decide_eq_false hji]; rfl) hk
  have at_check {j : Nat} {b : Origin} {check : Check} {ds : List Deed} (hb : o j = some b)
      (hc : check.Course b j ds) (hk : check.queues i = true) : ∃ b, o i = some b := by
    cases hc with
    | queued | refreshing => exact ⟨b, of_decide_eq_true hk ▸ hb⟩
    | _ => cases hk
  cases h with
  | create hes h => cases h <;> exact absurd rfl hk
  | stop hes h =>
    cases h with
    | queued hi =>
      obtain ⟨b, hb, -⟩ := hi
      exact at_record hb hk
    | _ => exact absurd rfl hk
  | remove hes h =>
    cases h with
    | queued hi =>
      obtain ⟨b, hb, -⟩ := hi
      exact at_record hb hk
    | destroying hb hid => exact at_record hb hk
    | closing hb hid => exact at_record hb hk
    | _ => exact absurd rfl hk
  | status hes h =>
    cases h with
    | @checking j b hb hid check ds hc hn =>
      refine at_check hb hc ?_
      cases hqueues : check.queues i with
      | true => rfl
      | false => exact absurd (congrArg Bool.toNat hqueues) hk
    | _ => exact absurd rfl hk
  | list h =>
    cases h with
    | @gathering targets checks _ h =>
      obtain ⟨check, hmem, hqueues⟩ := List.countP_pos_iff.mp (Nat.pos_of_ne_zero hk)
      obtain ⟨k, hk⟩ := List.mem_iff_getElem?.mp hmem
      have hlt : k < targets.length := h.length_eq ▸ (List.getElem?_eq_some_iff.mp hk).1
      obtain ⟨b, hb, hc⟩ := h.course (List.getElem?_eq_getElem hlt) hk
      exact at_check hb hc hqueues
    | _ => exact absurd rfl hk
  | agent hes h => cases h <;> exact absurd rfl hk
  | address hes h => cases h <;> exact absurd rfl hk
  | ids hes h => cases h <;> exact absurd rfl hk

/-! ### Counts -/

/-- The guard counts the calls in the directory, and every lock is fair and counts the strands at it. -/
structure System.Counted (s : System) : Prop where
  guard : s.store.guard.visitors = s.calls.countP Running.visits
  fair : ∀ (i : Nat) (r : Record), s.store.records[i]? = some r → r.lock.Fair s.calls.length
  locks : ∀ (i : Nat) (r : Record), s.store.records[i]? = some r → r.lock.strands.length = (s.calls.map (·.queueing i)).sum

theorem Guard.visitors_of_enter {g g' : Guard} {v : Visit} (h : g.enter v = some g') :
    g'.visitors = g.visitors + 1 ∧ g'.leave = g := by
  cases g with
  | free =>
    simp only [enter, Option.some.injEq] at h
    subst h
    split <;> exact ⟨rfl, rfl⟩
  | readers n =>
    simp only [enter] at h
    split at h <;> cases h
    exact ⟨rfl, rfl⟩
  | writer => cases h

theorem Guard.visitors_leave (g : Guard) : g.leave.visitors = g.visitors - 1 := by
  cases g with
  | readers others => cases others <;> rfl
  | _ => rfl

theorem visits_ofCheck (id : String) (check : Check) : Running.visits ⟨.status id, Point.ofCheck id check⟩ = false := by
  cases check with
  | settled status => cases status <;> rfl
  | _ => rfl

theorem visits_ofChecks (filter : Sandbox.Filter) (checks : List Check) :
    Running.visits ⟨.list filter, Point.ofChecks filter checks⟩ = false := by
  obtain ⟨reports, rfl, h⟩ | ⟨-, h⟩ := Point.ofChecks_cases filter checks <;> rw [h] <;> rfl

/-- A call that enters the directory or leaves it is counted or not counted any more; no other call is concerned. -/
theorem Pace.visits {backend : String} {me : Strand} {s t : Store} {p q : Running} {ds : List Deed}
    (h : Pace backend me s p ds q t) :
    (∃ v, s.guard.enter v = some t.guard ∧ p.visits = false ∧ q.visits = true) ∨
      (t.guard = s.guard.leave ∧ p.visits = true ∧ q.visits = false) ∨
      (t.guard = s.guard ∧ p.visits = false ∧ q.visits = false) := by
  cases h with
  | enter hg => exact .inl ⟨_, hg, rfl, rfl⟩
  | enroll | stopFound | stopMissing | removeFound | removeMissing | statusFound | statusMissing | told =>
    exact .inr (.inl ⟨rfl, rfl, rfl⟩)
  | listed => exact .inr (.inl ⟨rfl, rfl, visits_ofChecks _ _⟩)
  | forget =>
    refine .inr (.inl ⟨?_, rfl, rfl⟩)
    split <;> rfl
  | check h =>
    have hq := visits_ofCheck
    cases h <;> exact .inr (.inr ⟨rfl, rfl, hq _ _⟩)
  | gather hc h =>
    have hq := visits_ofChecks
    cases h <;> exact .inr (.inr ⟨rfl, rfl, hq _ _⟩)
  | _ => exact .inr (.inr ⟨rfl, rfl, rfl⟩)

namespace System
variable {s : System} {me : Strand} {p q : Running} {ds : List Deed} {t : Store}

theorem Counted.guard_after (h : s.Counted) (hp : s.calls[me.call]? = some p) (hq : Pace s.backend me s.store p ds q t) :
    t.guard.visitors = (s.calls.set me.call q).countP Running.visits := by
  have hset := countP_set (f := Running.visits) hp q
  have hguard := h.guard
  obtain ⟨v, he, hpv, hqv⟩ | ⟨hl, hpv, hqv⟩ | ⟨hsame, hpv, hqv⟩ := hq.visits
  · have hv := (Guard.visitors_of_enter he).1
    rw [hpv, hqv, Bool.toNat_false, Bool.toNat_true] at hset
    omega
  · have hv := Guard.visitors_leave s.store.guard
    rw [hpv, hqv, Bool.toNat_false, Bool.toNat_true] at hset
    rw [hl]
    omega
  · rw [hpv, hqv, Bool.toNat_false] at hset
    rw [hsame]
    omega

theorem sum_queueing_after (hp : s.calls[me.call]? = some p) (i : Nat) :
    ((s.calls.set me.call q).map (·.queueing i)).sum + p.queueing i =
      (s.calls.map (·.queueing i)).sum + q.queueing i := by
  rw [List.map_set]
  refine sum_set ?_ _
  rw [List.getElem?_map, hp]
  rfl

/-- The strands at a record's lock after a step are counted still. `hnew`: nobody is at a record that is not there. -/
theorem Counted.after (h : s.Counted) (hp : s.calls[me.call]? = some p) (hq : Pace s.backend me s.store p ds q t)
    (hnew : (s.calls.map (·.queueing s.store.records.length)).sum = 0) : (s.after me q t).Counted := by
  have hme : me.call < s.calls.length := (List.getElem?_eq_some_iff.mp hp).1
  -- What has to be shown of the records alone.
  suffices ∀ (i : Nat) (r : Record), t.records[i]? = some r → r.lock.Fair s.calls.length ∧
      r.lock.strands.length + p.queueing i = (s.calls.map (·.queueing i)).sum + q.queueing i by
    refine ⟨h.guard_after hp hq, fun i r hr => ?_, fun i r hr => ?_⟩
    · rw [System.after, List.length_set]
      exact (this i r hr).1
    · have hsum := sum_queueing_after (q := q) hp i
      have hthis := (this i r hr).2
      simp only [System.after]
      omega
  intro i r hr
  have same (hr : s.store.records[i]? = some r) (hk : q.queueing i = p.queueing i) :
      r.lock.Fair s.calls.length ∧
        r.lock.strands.length + p.queueing i = (s.calls.map (·.queueing i)).sum + q.queueing i := by
    have hlock := h.locks i r hr
    exact ⟨h.fair i r hr, by omega⟩
  cases hq.shift with
  | away ht hk => exact same (ht ▸ hr) (hk i)
  | @born new hl ht hk =>
    rw [ht, List.getElem?_append] at hr
    by_cases hi : i < s.store.records.length
    · rw [if_pos hi] at hr
      exact same hr (hk i)
    · rw [if_neg hi] at hr
      have hlt := (List.getElem?_eq_some_iff.mp hr).1
      simp only [List.length_singleton] at hlt
      obtain rfl : i = s.store.records.length := by omega
      obtain rfl := List.mem_singleton.mp (List.mem_of_getElem? hr)
      rw [hl, hk, hnew]
      exact ⟨Lock.fair_free _, rfl⟩
  | @ask j ht hk =>
    subst ht
    simp only [Store.requestLock, Store.modify, List.getElem?_modify] at hr
    obtain ⟨old, hold, rfl⟩ := Option.map_eq_some_iff.mp hr
    have hlock := h.locks i old hold
    have hki := hk i
    by_cases hji : j = i
    · rw [decide_eq_true hji, Bool.toNat_true] at hki
      rw [if_pos hji]
      refine ⟨(h.fair i old hold).request hme, ?_⟩
      show (old.lock.request me).strands.length + _ = _
      rw [Lock.length_request]
      omega
    · rw [decide_eq_false hji, Bool.toNat_false] at hki
      rw [if_neg hji]
      exact ⟨h.fair i old hold, by omega⟩
  | @letGo j old new hold hl ht hk =>
    have hki := hk i
    by_cases hji : j = i
    · subst hji
      rw [ht, List.getElem?_set_self (List.getElem?_eq_some_iff.mp hold).1] at hr
      cases hr
      have hlock := h.locks j old hold
      have hfair := h.fair j old hold
      have hlen := hfair.length_release
      have hsum := sum_queueing_after (q := q) hp j
      rw [decide_eq_true rfl, Bool.toNat_true] at hki
      rw [hl]
      exact ⟨hfair.release, by omega⟩
    · rw [decide_eq_false hji, Bool.toNat_false] at hki
      rw [ht, List.getElem?_set_ne hji] at hr
      exact same hr hki.symm

end System

section
variable {backend : String} {catalog : Option String} {now : Nat} {log : List Note} {s : System}

theorem Run.sum_queueing_new (h : Run (.new backend catalog now) log s) :
    (s.calls.map (·.queueing s.store.records.length)).sum = 0 := by
  refine List.sum_eq_zero_iff_forall_eq_nat.mpr fun x hx => ?_
  obtain ⟨p, hp, rfl⟩ := List.mem_map.mp hx
  obtain ⟨n, hn⟩ := List.mem_iff_getElem?.mp hp
  by_cases hne : p.queueing s.store.records.length = 0
  · exact hne
  · obtain ⟨b, hb⟩ := (h.orderly.course hn).known_of_queueing hne
    obtain ⟨r, hr, -⟩ := Option.map_eq_some_iff.mp hb
    exact absurd (List.getElem?_eq_some_iff.mp hr).1 (Nat.lt_irrefl _)

theorem Run.counted (h : Run (.new backend catalog now) log s) : s.Counted := by
  refine Run.induct (P := fun _ s => s.Counted) ?_ ?_ h
  · refine ⟨rfl, ?_, ?_⟩
    · intro i r hr
      cases hr
    · intro i r hr
      cases hr
  intro log notes t u hrun ih hg
  cases hg with
  | start c =>
    have hvisits : Running.visits ⟨c, .initial c⟩ = false := by cases c <;> rfl
    have hqueueing (i : Nat) : Running.queueing ⟨c, .initial c⟩ i = 0 := by cases c <;> rfl
    refine ⟨?_, fun i r hr => ?_, fun i r hr => ?_⟩
    · rw [System.start, List.countP_append, List.countP_singleton, hvisits]
      exact ih.guard
    · rw [System.start, List.length_append]
      exact (ih.fair i r hr).mono (Nat.le_add_right _ _)
    · rw [System.start, List.map_append, List.sum_append, List.map_singleton, hqueueing]
      exact ih.locks i r hr
  | pace hp hq => exact ih.after hp hq hrun.sum_queueing_new
  | pass milliseconds => exact ⟨ih.guard, ih.fair, ih.locks⟩
  | enableImageBoot => exact ⟨ih.guard, ih.fair, ih.locks⟩

/-! ### Leaving the directory -/

theorem Guard.eq_free_of_visitors {g : Guard} (h : g.visitors = 0) : g = .free := by
  cases g with
  | free => rfl
  | _ => cases h

/-- Whoever is in the directory can do there what it came for. -/
theorem Course.visit {o : Origins} {ns : List Note} {c : Call} {v : Visit} (h : Course backend o ns ⟨c, .inside v⟩)
    (s : Store) : ∃ next, Point.visit s c v = some next := by
  cases h with
  | create _ h | stop _ h | remove _ h | status _ h | list h | agent _ h | address _ h | ids _ h =>
    cases h <;> exact ⟨_, rfl⟩

/-- Whoever is in the directory leaves it at its next step, at which the other calls stay where they are. -/
theorem Run.leaves (h : Run (.new backend catalog now) log s) {n : Nat} {p : Running} (hp : s.calls[n]? = some p)
    (hv : p.visits = true) : ∃ t, s.advance ⟨n, 0⟩ = some t ∧ t.store.guard = s.store.guard.leave ∧
      ∀ m, m ≠ n → t.calls[m]? = s.calls[m]? := by
  obtain ⟨c, p⟩ := p
  cases p with
  | inside v =>
    obtain ⟨next, hnext⟩ := (h.orderly.course hp).visit s.store.left
    have hvisit : Point.advance ⟨n, 0⟩ s.store (.inside v : Point c) = some next := by cases c <;> exact hnext
    have hadvance : s.advance ⟨n, 0⟩ = some (s.place n next) := by
      rw [System.advance, hp]
      exact congrArg (Option.map (s.place n)) hvisit
    refine ⟨_, hadvance, ?_, fun m hm => List.getElem?_set_ne hm.symm⟩
    obtain ⟨p, q, ds, st, hp', heq, -, hpace⟩ := System.pace_of_advance hadvance
    cases hp.symm.trans hp'
    rw [heq]
    obtain ⟨-, -, hnot, -⟩ | ⟨hleave, -⟩ | ⟨-, hnot, -⟩ := hpace.visits
    · cases hnot
    · exact hleave
    · cases hnot
  | _ => cases hv

/-! ### Removed records -/

theorem Run.not_removed (h : Run (.new backend catalog now) log s) {id : String} {i : Nat}
    (hi : s.store.directory.find? id = some i) : ¬Noted Deed.removes i log := by
  refine Run.induct (P := fun log s => ∀ {id i}, s.store.directory.find? id = some i → ¬Noted Deed.removes i log) ?_ ?_
    h hi
  · exact fun hi => nomatch hi
  · intro log notes t u hrun ih hg id i hi
    cases hg with
    | @pace me p q ds st hp hq =>
      rw [noted_append]
      rintro (hold | ⟨hrec, hrem⟩)
      · obtain hfound | ⟨spec, suffix, rfl⟩ := hq.redirect.find?_cases hi
        · exact ih hfound hold
        · exact hrun.not_enrolled hp (hrun.reached.removed hold)
      · -- The step is the end of a remove, which leaves no id with the record.
        obtain ⟨name, id', j, rfl⟩ := hq.redirect.removes hrem
        obtain hfound | ⟨spec, suffix, heq⟩ := hq.redirect.find?_cases hi
        · have hmake : ∀ d ∈ ds, ∀ spec suffix, d ≠ .ends (.create spec suffix) (.ok id) := by
            rintro d hd spec suffix rfl
            cases hq.may.2 _ hd
          have ho := hrun.orderly
          obtain ⟨-, hkept⟩ | ⟨hgone, -⟩ := hq.find?_kept ho.placed (ho.course hp) hfound hmake
          · obtain ⟨d, hd, hremoves⟩ := hrem
            cases (hkept hrec d hd).symm.trans hremoves
          · cases hgone.symm.trans hi
        · cases heq
    | start c =>
      rw [List.append_nil]
      exact ih hi
    | pass milliseconds =>
      rw [List.append_nil]
      exact ih hi
    | enableImageBoot =>
      rw [List.append_nil]
      exact ih hi

/-- What the store is like while no call is in progress: nobody is in the directory, every lock is free, and the
    directory leads to no removed sandbox. -/
structure Store.Calm (s : Store) : Prop where
  guard : s.guard = .free
  locks : ∀ {i : Nat} {r : Record}, s.records[i]? = some r → r.lock = .free
  present : ∀ {id : String} {i : Nat} {r : Record}, s.directory.find? id = some i → s.records[i]? = some r →
    r.removed = false

theorem Run.calm (h : Run (.new backend catalog now) log s) (hidle : s.Idle) : s.store.Calm where
  guard := by
    have hzero : s.calls.countP Running.visits = 0 := by
      rw [List.countP_eq_zero]
      intro p hp
      obtain ⟨result, hres⟩ := hidle p hp
      simp [Running.visits, hres]
    have hguard := h.counted.guard
    rw [hzero] at hguard
    cases hg : s.store.guard <;> rw [hg] at hguard <;> cases hguard
  locks := by
    intro i r hr
    refine Lock.eq_free_of_length ?_
    rw [h.counted.locks i r hr]
    refine List.sum_eq_zero_iff_forall_eq_nat.mpr fun x hx => ?_
    obtain ⟨p, hp, rfl⟩ := List.mem_map.mp hx
    obtain ⟨result, hres⟩ := hidle p hp
    simp [Running.queueing, hres]
  present := by
    intro id i r hi hr
    obtain ⟨w, -, hlife⟩ := h.life hr
    cases hremoved : r.removed with
    | false => rfl
    | true =>
      have hpos : 0 < (chronicle i log).countP (·.deed.removes) := by
        rw [← h.closed_eq_removes hidle hr, hlife.guarded.closed, hremoved]
        exact Nat.one_pos
      obtain ⟨e, he, hd⟩ := List.countP_pos_iff.mp hpos
      exact absurd ⟨e, he, hd⟩ (h.not_removed hi)

end

end PodMachines.Pods
