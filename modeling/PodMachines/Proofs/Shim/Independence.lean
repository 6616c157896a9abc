import PodMachines.Proofs.Pods.Maker
import PodMachines.Proofs.Shim.Handling
import PodMachines.Proofs.Shim.Looking

/-! What requests for different sandboxes have to do with each other, where every sandbox has an agent of its own: nothing.
    Main statement: two requests for two sandboxes come to the same answers and leave everything the same in either
    order, and neither touches the other's sandbox, machine or agent. -/

namespace PodMachines
open Service Session

/-- A request for the sandbox of an id: a stop, a remove, a status, or one about its containers. -/
def Service.Request.For (id : String) (r : Request) : Prop :=
  r.Gives id ∧ ∀ filter, r ≠ .listPods filter

/-- The agents of the sandboxes in the directory. -/
def Pods.Store.agents (s : Store) : List Connection :=
  s.directory.values.filterMap fun i => s.records[i]?.map Record.agent

theorem Service.Request.For.treatment {V G : Type} {r : Request} {id : String} (hr : r.For id) (manners : Pods.Manners V G)
    (name : String) : ∃ x, r.treatment? manners name id = some x := by
  cases r with
  | stopPod | removePod | podStatus | containers => exact ⟨_, rfl⟩
  | listPods filter => exact absurd rfl (hr.2 filter)
  | _ => exact hr.1.elim

namespace Shim
variable {V G : Type} {manners : Pods.Manners V G} {backend a b id : String} {catalog : Option String} {now : Nat}
  {images : Option Images} {ms : List (Move Answer)} {log : List Pods.Note} {s t u : Shim Answer}
  {o o₁ o₂ : Pods.Outer V G} {r q : Request} {x y : Answer}

/-- Two states that agree in all but what is under way or over. -/
structure Same (s t : Shim Answer) : Prop where
  store : s.pods.store = t.pods.store
  setting : s.setting = t.setting

theorem Run.apart_of_agents (h : Run (.new backend catalog now images) ms log s) (hagents : s.pods.store.agents.Nodup)
    (hab : a ≠ b) : s.pods.store.Apart a b := by
  intro i j r q hi hr hj hq
  have placed {id : String} {i : Nat} {r : Pods.Record} (hi : s.pods.store.directory.find? id = some i)
      (hr : s.pods.store.records[i]? = some r) : r.id = id ∧ r.id = r.machine.id := by
    obtain ⟨r', hr', hid⟩ := h.pods.orderly.placed.record hi
    cases hr.symm.trans hr'
    obtain ⟨call, hm⟩ := h.pods.maker (Pods.Store.origins_eq hr)
    exact ⟨hid, hm.named⟩
  obtain ⟨hra, hrm⟩ := placed hi hr
  obtain ⟨hqb, hqm⟩ := placed hj hq
  have hij : i ≠ j := by
    rintro rfl
    cases hr.symm.trans hq
    exact hab (hra.symm.trans hqb)
  refine ⟨hij, ?_, ?_⟩
  · intro hm
    rw [hm] at hrm
    exact hab (hra.symm.trans (hrm.trans (hqm.symm.trans hqb)))
  · intro hg
    refine hij (Pods.eq_of_nodup_filterMap hagents (Table.mem_values_of_find? hi) (Table.mem_values_of_find? hj)
      (k := r.agent) ?_ ?_)
    · rw [hr]
      rfl
    · rw [hq, hg]
      rfl

/-! ### One request -/

theorem Serves.run (hs : Serves manners s o r x t o₁) (h : Run (.new backend catalog now images) ms log s) :
    ∃ ms log, Run (.new backend catalog now images) ms log t := by
  obtain ⟨more, after, hrun⟩ := Executes.run hs
  exact ⟨_, _, h.trans hrun⟩

/-- A request for one sandbox comes to one answer and one end. -/
theorem Serves.unique (h : Run (.new backend catalog now images) ms log s) (hr : r.For id)
    (hs : Serves manners s o r x t o₁) (hs' : Serves manners s o r y u o₂) : x = y ∧ t.Same u ∧ o₁ = o₂ := by
  obtain ⟨z, hz⟩ := hr.treatment manners s.pods.backend
  obtain ⟨ho, hset⟩ := hs.outcome h hr.1 hz
  obtain ⟨ho', hset'⟩ := hs'.outcome h hr.1 hz
  obtain ⟨hxy, hst, hout⟩ := ho.unique ho'
  exact ⟨hxy, ⟨hst, hset.trans hset'.symm⟩, hout⟩

theorem backend_eq (h : t.setting = s.setting) : t.pods.backend = s.pods.backend :=
  congrArg Prod.fst h

theorem exists_serves_of_same (h : Run (.new backend catalog now images) ms log s)
    {ms' : List (Move Answer)} {log' : List Pods.Note} (h' : Run (.new backend catalog now images) ms' log' u)
    (hr : r.For id) (hu : u.Same s) (hs : Serves manners s o r x t o₁) : ∃ v, Serves manners u o r x v o₁ ∧ v.Same t := by
  obtain ⟨z, hz⟩ := hr.treatment manners s.pods.backend
  obtain ⟨ho, hset⟩ := hs.outcome h hr.1 hz
  rw [← hu.store] at ho
  have hzu : r.treatment? manners u.pods.backend id = some z := (backend_eq hu.setting).symm ▸ hz
  obtain ⟨v, hv, hstore⟩ := exists_serves h' hr.1 hzu ho
  obtain ⟨-, hsetv⟩ := hv.outcome h' hr.1 hzu
  exact ⟨v, hv, hstore, hsetv.trans (hu.setting.trans hset.symm)⟩

theorem exists_serves_of_idle (h : Run (.new backend catalog now images) ms log s) (hidle : s.pods.Idle) (hr : r.For id)
    (manners : Pods.Manners V G) (o : Pods.Outer V G) : ∃ x t o₁, Serves manners s o r x t o₁ := by
  obtain ⟨z, hz⟩ := hr.treatment manners s.pods.backend
  have hcalm := h.pods.calm hidle
  obtain ⟨x, st, o₁, ho⟩ :=
    Pods.exists_outcome z id o hcalm.guard h.pods.orderly.placed fun _ hr => hcalm.locks hr
  obtain ⟨t, ht, -⟩ := exists_serves h hr.1 hz ho
  exact ⟨x, t, o₁, ht⟩

/-! ### Two requests -/

section
variable (h : Run (.new backend catalog now images) ms log s) (hagents : s.pods.store.agents.Nodup) (hab : a ≠ b)
include h hagents hab

/-- A request for one sandbox leaves the others in the directory, their machines and their agents as they are. -/
theorem Serves.spares (hr : r.For a) (hs : Serves manners s o r x t o₁) :
    t.pods.store.directory.find? b = s.pods.store.directory.find? b ∧ ∀ {j : Nat} {q : Pods.Record},
      s.pods.store.directory.find? b = some j → s.pods.store.records[j]? = some q → t.pods.store.records[j]? = some q ∧
        o₁.machine q.machine = o.machine q.machine ∧ o₁.agent q.agent = o.agent q.agent := by
  obtain ⟨z, hz⟩ := hr.treatment manners s.pods.backend
  exact (hs.outcome h hr.1 hz).1.spares hab (h.apart_of_agents hagents hab)

/-- Where two requests for two sandboxes can be served in one order, they can be in the other, and come to the same. -/
theorem Serves.swap (hr : r.For a) (hq : q.For b) (hs : Serves manners s o r x t o₁) (hs' : Serves manners t o₁ q y u o₂) :
    ∃ t' u' o₁', Serves manners s o q y t' o₁' ∧ Serves manners t' o₁' r x u' o₂ ∧ u'.Same u := by
  obtain ⟨v, hv⟩ := hr.treatment manners s.pods.backend
  obtain ⟨w, hw⟩ := hq.treatment manners s.pods.backend
  obtain ⟨ms', log', ht⟩ := hs.run h
  obtain ⟨hor, hset⟩ := hs.outcome h hr.1 hv
  have hwt : q.treatment? manners t.pods.backend b = some w := (backend_eq hset).symm ▸ hw
  obtain ⟨hoq, hset'⟩ := hs'.outcome ht hq.1 hwt
  obtain ⟨st, p, hoq, hor⟩ := hor.swap h.pods.orderly.placed hab (h.apart_of_agents hagents hab) hoq
  obtain ⟨t', hst', rfl⟩ := exists_serves h hq.1 hw hoq
  obtain ⟨ms'', log'', ht'⟩ := hst'.run h
  obtain ⟨-, hset''⟩ := hst'.outcome h hq.1 hw
  have hvt : r.treatment? manners t'.pods.backend a = some v := (backend_eq hset'').symm ▸ hv
  obtain ⟨u', hsu', hstore⟩ := exists_serves ht' hr.1 hvt hor
  obtain ⟨-, hsetu⟩ := hsu'.outcome ht' hr.1 hvt
  exact ⟨t', u', p, hst', hsu', hstore, hsetu.trans (hset''.trans (hset'.trans hset).symm)⟩

theorem exists_serves_both (hidle : s.pods.Idle) (hr : r.For a) (hq : q.For b) (manners : Pods.Manners V G)
    (o : Pods.Outer V G) : ∃ x t o₁ y u o₂, Serves manners s o r x t o₁ ∧ Serves manners t o₁ q y u o₂ := by
  obtain ⟨x, t, o₁, hs⟩ := exists_serves_of_idle h hidle hr manners o
  obtain ⟨ms', log', ht⟩ := hs.run h
  obtain ⟨v, hv⟩ := hr.treatment manners s.pods.backend
  obtain ⟨w, hw⟩ := hq.treatment manners t.pods.backend
  have hcalm := h.pods.calm hidle
  have hguard := ((hs.outcome h hr.1 hv).1.guard_eq).1.trans hcalm.guard
  obtain ⟨hfind, hspared⟩ := Serves.spares h hagents hab hr hs
  obtain ⟨y, st, o₂, hoq⟩ := Pods.exists_outcome w b o₁ hguard ht.pods.orderly.placed fun {j k} hj hk => by
    rw [hfind] at hj
    obtain ⟨k', hk', -⟩ := h.pods.orderly.placed.record hj
    cases (hspared hj hk').1.symm.trans hk
    exact hcalm.locks hk'
  obtain ⟨u, hsu, -⟩ := exists_serves ht hq.1 hw hoq
  exact ⟨x, t, o₁, y, u, o₂, hs, hsu⟩

end

/-! ### Stops -/

/-- What a stop makes of the sandboxes: the one that it is for is not ready any more, if it is there. -/
theorem outcome_stop {st st' : Pods.Store} (hp : st.Placed) {z : Pods.Treatment Answer V G}
    (hz : (Request.stopPod id).treatment? manners backend id = some z) :
    z.Outcome id st o x st' o₁ ↔ st.guard ≠ .writer ∧
      ((st.directory.find? id = none ∧ x = .refused (unknown id) ∧ st' = st ∧ o₁ = o) ∨
        ∃ i r, st.directory.find? id = some i ∧ st.records[i]? = some r ∧ r.lock = .free ∧
          ((r.removed = true ∧ x = .refused (unknown id) ∧ st' = st ∧ o₁ = o) ∨
            (r.removed = false ∧ x = .response (.stopPod id) () ∧
              st' = st.put i { r with lifecycle := .notReady } ∧ o₁ = o))) := by
  cases hz
  cases hi : st.directory.find? id with
  | none => simp [Pods.outcome_of_none hi, Pods.Treatment.map]
  | some i =>
    obtain ⟨r, hr, -⟩ := hp.record hi
    rw [Pods.outcome_of_some hi hr rfl]
    cases hd : r.removed <;>
      simp [Pods.Treatment.map, hd, hr, Pods.Store.dealt_of_kept, Pods.Store.put_self hr, Pods.Outer.dealt_self]

theorem for_stopPod (id : String) : (Request.stopPod id).For id :=
  ⟨rfl, nofun⟩

theorem outcome_stop_again {st st' : Pods.Store} (hp : st.Placed) (hp' : st'.Placed) {z : Pods.Treatment Answer V G}
    (hz : (Request.stopPod id).treatment? manners backend id = some z) (ho : z.Outcome id st o x st' o₁) :
    z.Outcome id st' o₁ x st' o₁ := by
  rw [outcome_stop hp' hz]
  rcases (outcome_stop hp hz).mp ho with
    ⟨hg, ⟨hi, hx, rfl, rfl⟩ | ⟨i, r, hi, hr, hl, ⟨hd, hx, rfl, rfl⟩ | ⟨hd, hx, rfl, rfl⟩⟩⟩
  · exact ⟨hg, .inl ⟨hi, hx, rfl, rfl⟩⟩
  · exact ⟨hg, .inr ⟨i, r, hi, hr, hl, .inl ⟨hd, hx, rfl, rfl⟩⟩⟩
  · -- The record is there still, and was marked already.
    have hput := Pods.Store.put_getElem? hr { r with lifecycle := .notReady }
    refine ⟨hg, .inr ⟨i, _, hi, hput, hl, .inr ⟨hd, hx, ?_, rfl⟩⟩⟩
    rw [Pods.Store.put_put]

section
variable (h : Run (.new backend catalog now images) ms log s) (hs : Serves manners s o (.stopPod id) x t o₁)
include h hs

theorem Serves.stops : o₁ = o ∧ t.setting = s.setting ∧
    (t.pods.store = s.pods.store ∨ ∃ i r, s.pods.store.directory.find? id = some i ∧
      s.pods.store.records[i]? = some r ∧ t.pods.store = s.pods.store.put i { r with lifecycle := .notReady }) := by
  obtain ⟨z, hz⟩ := (for_stopPod id).treatment manners s.pods.backend
  obtain ⟨ho, hset⟩ := hs.outcome h (for_stopPod id).1 hz
  rcases ((outcome_stop h.pods.orderly.placed hz).mp ho).2 with
    ⟨-, -, hstore, hout⟩ | ⟨i, r, hi, hr, -, ⟨-, -, hstore, hout⟩ | ⟨-, -, hstore, hout⟩⟩
  · exact ⟨hout, hset, .inl hstore⟩
  · exact ⟨hout, hset, .inl hstore⟩
  · exact ⟨hout, hset, .inr ⟨i, r, hi, hr, hstore⟩⟩

theorem Serves.stops_again : (∃ u, Serves manners t o₁ (.stopPod id) x u o₁ ∧ u.Same t) ∧
    ∀ {y : Answer} {u : Shim Answer} {o₂ : Pods.Outer V G}, Serves manners t o₁ (.stopPod id) y u o₂ →
      y = x ∧ u.Same t ∧ o₂ = o₁ := by
  obtain ⟨z, hz⟩ := (for_stopPod id).treatment manners s.pods.backend
  obtain ⟨ms', log', ht⟩ := hs.run h
  obtain ⟨ho, -⟩ := hs.outcome h (for_stopPod id).1 hz
  have hagain := outcome_stop_again h.pods.orderly.placed ht.pods.orderly.placed hz ho
  obtain ⟨u, hu, hstore⟩ := exists_serves ht (for_stopPod id).1 hz hagain
  have hsame : u.Same t := ⟨hstore, (hu.outcome ht (for_stopPod id).1 hz).2⟩
  refine ⟨⟨u, hu, hsame⟩, fun {y u' o₂} hu' => ?_⟩
  obtain ⟨hyx, huu, hout⟩ := Serves.unique ht (for_stopPod id) hu' hu
  exact ⟨hyx, ⟨huu.store.trans hsame.store, huu.setting.trans hsame.setting⟩, hout⟩

end

theorem Run.quiet_of_stop (h : Run (.new backend catalog now images) ms log s) {me : Pods.Strand}
    {p : Pods.Point (.stop id)} (hp : s.pods.calls[me.call]? = some ⟨.stop id, p⟩) : s.pods.request? me = none := by
  rw [Pods.System.request?, hp, Option.bind_some]
  cases h.pods.orderly.course hp with
  | stop hes hstopping => cases hstopping <;> rfl

/-! ### Containers -/

theorem Serves.containers (h : Run (.new backend catalog now images) ms log s) {request : Agent.Request}
    (hs : Serves manners s o (.containers request) x t o₁) : t.Same s ∧ o₁.machine = o.machine := by
  have huses : (requested s.pods.backend (.containers request)).Uses Act.Looks :=
    (serveContainers_uses request (.inl (.inl ⟨_, rfl, .inr (.inr rfl)⟩)) (fun id => .inl (.inl ⟨_, rfl, .inl ⟨id, rfl⟩⟩))
      (fun connection request => .inl (.inr ⟨connection, request, rfl⟩)) (fun filter ids => .inr (.inl ⟨filter, ids, rfl⟩))
      fun inquiries => .inr (.inr ⟨inquiries, rfl⟩)).bind fun _ => trivial
  obtain ⟨ms', log', ht⟩ := hs.run h
  have hover (job : Job Answer) (hj : t.jobs[s.jobs.length]? = some job) (k : Nat) (hk : k ∈ job.inquiries) :
      ∃ i result, t.inquiries[k]? = some i ∧ i.left = Program.done result := by
    obtain ⟨job', hj', hcourse, hleft⟩ := hs.ended
    cases hj.symm.trans hj'
    exact ht.inquiries_over hj hcourse hleft hk
  obtain ⟨hstore, hset, hmachine⟩ := Executes.spares h hs huses hover
  exact ⟨⟨hstore, hset⟩, hmachine⟩

/-! ### Independence -/

/-- What requests for the sandboxes of two ids have to do with each other. -/
structure Independent (manners : Pods.Manners V G) (s : Shim Answer) (o : Pods.Outer V G) (a b : String) : Prop where
  /-- Two requests come to the same answers and to the same end in either order. -/
  order : ∀ {r q : Request} {x y x' y' : Answer} {t u t' u' : Shim Answer} {o₁ o₂ o₁' o₂' : Pods.Outer V G}, r.For a →
    q.For b → Serves manners s o r x t o₁ → Serves manners t o₁ q y u o₂ →
      Serves manners s o q y' t' o₁' → Serves manners t' o₁' r x' u' o₂' → x' = x ∧ y' = y ∧ u'.Same u ∧ o₂' = o₂
  /-- They can be served in either order if they can be served in one. -/
  swap : ∀ {r q : Request} {x y : Answer} {t u : Shim Answer} {o₁ o₂ : Pods.Outer V G}, r.For a → q.For b →
    Serves manners s o r x t o₁ → Serves manners t o₁ q y u o₂ →
      ∃ t' u' o₁', Serves manners s o q y t' o₁' ∧ Serves manners t' o₁' r x u' o₂
  /-- They can be served while no call is in progress. -/
  served : s.pods.Idle → ∀ {r q : Request}, r.For a → q.For b →
    ∃ x t o₁ y u o₂, Serves manners s o r x t o₁ ∧ Serves manners t o₁ q y u o₂
  /-- A request for the one leaves the other, its machine and its agent as they are. -/
  spares : ∀ {r : Request} {x : Answer} {t : Shim Answer} {o₁ : Pods.Outer V G}, r.For a → Serves manners s o r x t o₁ →
    t.pods.store.directory.find? b = s.pods.store.directory.find? b ∧ ∀ {j : Nat} {q : Pods.Record},
      s.pods.store.directory.find? b = some j → s.pods.store.records[j]? = some q → t.pods.store.records[j]? = some q ∧
        o₁.machine q.machine = o.machine q.machine ∧ o₁.agent q.agent = o.agent q.agent
  /-- A stop touches nothing outside, and in the store at most whether its sandbox is ready. -/
  stop : ∀ {x : Answer} {t : Shim Answer} {o₁ : Pods.Outer V G}, Serves manners s o (.stopPod a) x t o₁ →
    o₁ = o ∧ t.setting = s.setting ∧ (t.pods.store = s.pods.store ∨ ∃ i r, s.pods.store.directory.find? a = some i ∧
      s.pods.store.records[i]? = some r ∧ t.pods.store = s.pods.store.put i { r with lifecycle := .notReady })
  /-- It asks nobody. -/
  quiet : (requested s.pods.backend (.stopPod a)).Uses (· = .pods (.stop a)) ∧ ∀ {me : Pods.Strand}
    {p : Pods.Point (.stop a)}, s.pods.calls[me.call]? = some ⟨.stop a, p⟩ → s.pods.request? me = none
  /-- It can be served again, comes to the same answer then, and changes nothing. -/
  again : ∀ {x : Answer} {t : Shim Answer} {o₁ : Pods.Outer V G}, Serves manners s o (.stopPod a) x t o₁ →
    (∃ u, Serves manners t o₁ (.stopPod a) x u o₁ ∧ u.Same t) ∧ ∀ {y : Answer} {u : Shim Answer} {o₂ : Pods.Outer V G},
      Serves manners t o₁ (.stopPod a) y u o₂ → y = x ∧ u.Same t ∧ o₂ = o₁
  /-- Requests about containers change neither the store nor a machine. -/
  containers : ∀ {request : Agent.Request} {x : Answer} {t : Shim Answer} {o₁ : Pods.Outer V G},
    Serves manners s o (.containers request) x t o₁ → t.Same s ∧ o₁.machine = o.machine

theorem sandboxes_independent (h : Run (.new backend catalog now images) ms log s)
    (hagents : s.pods.store.agents.Nodup) (hab : a ≠ b) (manners : Pods.Manners V G) (o : Pods.Outer V G) :
    Independent manners s o a b where
  order := by
    intro r q x y x' y' t u t' u' o₁ o₂ o₁' o₂' hr hq hs hs' hs₁ hs₁'
    obtain ⟨t₂, u₂, p, hs₂, hs₂', hsame⟩ := Serves.swap h hagents hab hr hq hs hs'
    obtain ⟨rfl, htt, rfl⟩ := Serves.unique h hq hs₁ hs₂
    obtain ⟨ms', log', ht'⟩ := hs₁.run h
    obtain ⟨ms₂, log₂, ht₂⟩ := hs₂.run h
    -- The states between differ in what is over at most, so that the second request comes to the same from either.
    obtain ⟨v, hv, hvu⟩ := exists_serves_of_same ht' ht₂ hr ⟨htt.store.symm, htt.setting.symm⟩ hs₁'
    obtain ⟨rfl, huu, rfl⟩ := Serves.unique ht₂ hr hv hs₂'
    refine ⟨rfl, rfl, ⟨?_, ?_⟩, rfl⟩
    · exact hvu.store.symm.trans (huu.store.trans hsame.store)
    · exact hvu.setting.symm.trans (huu.setting.trans hsame.setting)
  swap := by
    intro r q x y t u o₁ o₂ hr hq hs hs'
    obtain ⟨t', u', o₁', hs₁, hs₁', -⟩ := Serves.swap h hagents hab hr hq hs hs'
    exact ⟨t', u', o₁', hs₁, hs₁'⟩
  served hidle _ _ hr hq := exists_serves_both h hagents hab hidle hr hq manners o
  spares hr hs := Serves.spares h hagents hab hr hs
  stop hs := hs.stops h
  quiet := by
    refine ⟨?_, fun hp => h.quiet_of_stop hp⟩
    rw [requested_stopPod]
    exact ⟨rfl, fun _ => trivial⟩
  again hs := hs.stops_again h
  containers hs := hs.containers h

/-- In the tour there are two sandboxes. One can be removed, and the other asked to start a container then. -/
theorem sandboxes_independent_tour :
    Tour.both.pods.store.directory.keys = ["vm", "other"] ∧
      Independent Tour.manners Tour.both Tour.outside "vm" "other" ∧
      ∃ x t o₁ y u o₂, Serves Tour.manners Tour.both Tour.outside (.removePod "vm") x t o₁ ∧
        Serves Tour.manners t o₁ (.containers (.startContainer "other:c1")) y u o₂ := by
  have hindependent : Independent Tour.manners Tour.both Tour.outside "vm" "other" :=
    sandboxes_independent Tour.run_pair (by decide) (by decide) _ _
  have hconcerns : Concerns (.startContainer "other:c1") "other" := .inr ⟨_, rfl, sandboxOf_eq_iff.mp rfl⟩
  exact ⟨rfl, hindependent, hindependent.served (by decide) ⟨rfl, nofun⟩ ⟨.inl hconcerns, nofun⟩⟩

end Shim
end PodMachines
