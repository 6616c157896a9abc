import PodMachines.Proofs.Pods.Enrollment
import PodMachines.Proofs.Pods.Removal

/-! What becomes of the machines that are provisioned. Main statement: when no machine is provisioned with the id of
    an earlier one and every call is over, each machine is kept by a listed record, or was removed once, or was
    discarded by its create, and only one of these. -/

namespace PodMachines.Pods

/-- The directory leads to a record of the machine, or has something under its id. -/
def Store.Lists (s : Store) (machine : Machine.Handle) : Prop :=
  ∃ id i r, s.directory.find? id = some i ∧ s.records[i]? = some r ∧ (id = machine.id ∨ r.machine = machine)

/-- A listed record keeps the machine that was provisioned for a call. -/
structure Keeps (log : List Note) (s : System) (call : Nat) (machine : Machine.Handle) (i : Nat) (r : Record) :
    Prop where
  listed : s.store.directory.find? machine.id = some i
  record : s.store.records[i]? = some r
  id_eq : r.id = machine.id
  machine_eq : r.machine = machine
  /-- The address is the first one that the backend reported, whenever it reported any. -/
  address : ∃ rest, (∃ n ∈ log, n.strand.call = call ∧
    n.deed = .hears (.backend (.addresses machine)) (.ok (r.address :: rest))) ∧
      ∀ n ∈ log, ∀ found, n.deed = .hears (.backend (.addresses machine)) found → found = .ok (r.address :: rest)
  agent : ∃ n ∈ log, n.strand.call = call ∧ n.deed = .hears (.connect r.address) (.ok r.agent)
  unclosed : Closed log s i r 0
  undestroyed : ∀ n ∈ log, n.deed.destroyed? ≠ some machine

/-- A machine was removed. -/
structure Removed (log : List Note) (s : System) (machine : Machine.Handle) : Prop where
  /-- One destroy of it succeeded, that of a remove which succeeded. -/
  once : log.countP (·.deed.destroyed? = some machine) = 1
  remove : ∃ n ∈ log, n.deed.destroyed? = some machine ∧ s.result? n.strand.call (.remove machine.id) = some (.ok ())
  closed : ∃ i r, s.store.records[i]? = some r ∧ r.machine = machine ∧ Closed log s i r 1
  unlisted : ¬s.store.Lists machine

/-- A machine was discarded by the call for which it was provisioned. `first` is the state before the run. -/
structure Discarded (first : System) (log : List Note) (s : System) (call : Nat) (machine : Machine.Handle) :
    Prop where
  /-- The call failed, for the network or the agent, after the one destroy that was ever asked for. -/
  failed : ∃ spec suffix why, s.result? call (.create spec suffix) = some (.error why) ∧
    ((∃ id text, why = .network id text) ∨ ∃ address text, why = .agentUnreachable address text) ∧
      ∃ pre n post, log = pre ++ n :: post ∧ n.strand.call = call ∧ n.deed = .ends (.create spec suffix) (.error why) ∧
        pre.countP (·.deed.dooms? = some machine) = 1
  once : log.countP (·.deed.dooms? = some machine) = 1
  own : ∀ n ∈ log, n.deed.dooms? = some machine → n.strand.call = call
  /-- It was never listed. -/
  unlisted : ∀ {pre post : List Note} {t : System}, Run first pre t → Run t post s → pre ++ post = log →
    ¬t.store.Lists machine

inductive Fate
  | kept
  | removed
  | discarded

/-- What became of a machine that was provisioned for a call. -/
def Fate.Met (first : System) (log : List Note) (s : System) (call : Nat) (machine : Machine.Handle) : Fate → Prop
  | .kept => ∃ i r, Keeps log s call machine i r
  | .removed => Removed log s machine
  | .discarded => Discarded first log s call machine

theorem Deed.about?_of_dooms? {d : Deed} {machine : Machine.Handle} (h : d.dooms? = some machine) :
    d.about? = some machine := by
  unfold dooms? at h
  split at h
  · exact h
  · cases h

theorem Deed.about?_of_destroyed? {d : Deed} {machine : Machine.Handle} (h : d.destroyed? = some machine) :
    d.about? = some machine ∧ d.destroys = true := by
  unfold destroyed? at h
  split at h
  · exact ⟨h, rfl⟩
  · cases h

/-! ### Counting over a run -/

theorem countP_of_call {kind : Deed → Bool} {log : List Note} {call : Nat} {es : List Entry}
    (hes : (account call log).map Note.entry = es) (h : ∀ n ∈ log, kind n.deed = true → n.strand.call = call) :
    log.countP (fun n => kind n.deed) = es.countP fun e => kind e.2 := by
  rw [← hes, List.countP_map, account, List.countP_filter]
  refine List.countP_congr fun n hn => ?_
  simp only [Function.comp_apply, Note.entry, Bool.and_eq_true, decide_eq_true_eq]
  exact ⟨fun hk => ⟨hk, h n hn hk⟩, fun hk => hk.1⟩

theorem split_of_account {log : List Note} {call : Nat} {es : List Entry} {e : Entry}
    (h : (account call log).map Note.entry = es ++ [e]) :
    ∃ pre n post, log = pre ++ n :: post ∧ n.strand.call = call ∧ n.entry = e ∧
      (account call pre).map Note.entry = es := by
  obtain ⟨ns, last, hsplit, hns, hlast⟩ := List.map_eq_append_iff.mp h
  obtain ⟨n, rfl, hn⟩ := List.map_eq_singleton_iff.mp hlast
  obtain ⟨before, after, rfl, hbefore, hafter⟩ := List.filter_eq_append_iff.mp hsplit
  obtain ⟨between, post, rfl, hnone, hcall, -⟩ := List.filter_eq_cons_iff.mp hafter
  refine ⟨before ++ between, n, post, (List.append_assoc ..).symm, of_decide_eq_true hcall, hn, ?_⟩
  rw [account_append, show account call before = ns from hbefore,
    show account call between = [] from List.filter_eq_nil_iff.mpr hnone, List.append_nil, hns]

/-! ### How a create ends -/

def Loss (log : List Note) (s : System) (call : Nat) (machine : Machine.Handle) : Prop :=
  ∃ spec suffix why es, s.result? call (.create spec suffix) = some (.error why) ∧
    ((∃ id text, why = .network id text) ∨ ∃ address text, why = .agentUnreachable address text) ∧
      (account call log).map Note.entry = es ++ [(none, .ends (.create spec suffix) (.error why))] ∧
        es.countP (·.2.dooms? = some machine) = 1

theorem Call.of_machine? {c : Call} {d : Deed} (h : c.may d = true) {machine : Machine.Handle}
    (hd : d.machine? = some machine) : ∃ spec suffix, c = .create spec suffix := by
  unfold Deed.machine? at hd
  split at hd
  · cases c with
    | create spec suffix => exact ⟨spec, suffix, rfl⟩
    | _ => cases h
  · cases hd

theorem Lost.why_eq {machine : Machine.Handle} {ds : List Deed} {why : Failure} (h : Lost machine ds why) :
    (∃ id text, why = .network id text) ∨ ∃ address text, why = .agentUnreachable address text := by
  cases h with
  | unaddressed found hw =>
    obtain ⟨-, rfl⟩ | ⟨f, -, rfl⟩ := hw
    · exact .inl ⟨_, _, rfl⟩
    · cases f <;> exact .inl ⟨_, _, rfl⟩
  | unconnected address rest f => cases f <;> exact .inr ⟨_, _, rfl⟩

theorem Lost.countP_eq {machine : Machine.Handle} {ds : List Deed} {why : Failure} (h : Lost machine ds why)
    (vm : Machine.Spec) (a : Except Failure Unit) :
    (entries none (provided vm machine ++ ds ++ [.asks (.backend (.destroy machine)),
      .hears (.backend (.destroy machine)) a])).countP (·.2.dooms? = some machine) = 1 := by
  cases h <;> simp [entries, provided, located, Deed.dooms?]

section
variable {backend : String} {catalog : Option String} {now : Nat} {log : List Note} {s : System} {call i : Nat}
  {b : Origin} {machine : Machine.Handle} {e : Note}

theorem Maker.machine_eq (h : Maker log s e.strand.call i b) (he : e ∈ log) (hm : e.deed.machine? = some machine) :
    b.machine = machine := by
  obtain ⟨suffix, p, vm, rest, -, hpos, hes⟩ := h.course
  have hmem : machine ∈ ((account e.strand.call log).map Note.entry).filterMap (·.2.machine?) :=
    List.mem_filterMap.mpr ⟨e.entry, List.mem_map_of_mem (mem_account.mpr ⟨he, rfl⟩), hm⟩
  rw [hes] at hmem
  obtain rfl | rfl | rfl := hpos <;> exact (List.mem_singleton.mp hmem).symm

/-- A create that is over and got a machine lost it, or made a record of it. -/
theorem Run.outcome (h : Run (.new backend catalog now) log s) (hidle : s.Idle) (he : e ∈ log)
    (hm : e.deed.machine? = some machine) :
    Loss log s e.strand.call machine ∨ ∃ i b, Maker log s e.strand.call i b ∧ b.machine = machine := by
  obtain ⟨⟨c, p⟩, hp, hc, hmem⟩ := h.course_of_mem he
  obtain ⟨result, rfl⟩ : ∃ result, p = .finished result := hidle _ (List.mem_of_getElem? hp)
  obtain ⟨spec, suffix, rfl⟩ := Call.of_machine? (h.may hp e hmem) hm
  cases hc with
  | @create _ _ _ es hes hc =>
    have hmachine : machine ∈ es.filterMap (·.2.machine?) :=
      List.mem_filterMap.mpr ⟨e.entry, hes ▸ List.mem_map_of_mem hmem, hm⟩
    cases hc with
    | unprovisioned vm f => cases hmachine
    | @discarded vm machine' ds why hl a =>
      obtain rfl : machine = machine' := by
        cases hl <;> exact List.mem_singleton.mp hmachine
      refine .inl ⟨spec, suffix, why, _, System.result?_eq_some.mpr hp, hl.why_eq, ?_, hl.countP_eq vm a⟩
      rw [hes]
      simp [entries]
    | @enrolled vm machine' address rest agent i now hi =>
      have hmaker : Maker log s e.strand.call i ⟨machine'.id, spec, now, address, machine', agent⟩ :=
        ⟨hi, rfl, suffix, _, vm, rest, hp, .inr (.inr rfl), hes⟩
      exact .inr ⟨i, _, hmaker, hmaker.machine_eq he hm⟩

theorem Loss.not_maker (h : Loss log s call machine) : ¬Maker log s call i b := by
  intro hm
  obtain ⟨spec, suffix, why, es, hres, -⟩ := h
  obtain ⟨suffix', p, vm, rest, hp, hpos, -⟩ := hm.course
  rw [System.result?_eq_some, hp] at hres
  obtain rfl | rfl | rfl := hpos <;> cases hres

theorem Maker.enrolled (h : Maker log s call i b) (hidle : s.Idle) :
    (∃ suffix, s.result? call (.create b.spec suffix) = some (.ok b.id)) ∧ Noted Deed.enrolls i log := by
  obtain ⟨suffix, p, vm, rest, hp, hpos, hes⟩ := h.course
  obtain ⟨result, rfl⟩ : ∃ result, p = .finished result := hidle _ (List.mem_of_getElem? hp)
  obtain hpos | hpos | hpos := hpos <;> cases hpos
  refine ⟨⟨suffix, System.result?_eq_some.mpr hp⟩, ?_⟩
  have hmem : (some i, .ends (.create b.spec suffix) (.ok b.id)) ∈ (account call log).map Note.entry := by
    rw [hes]
    exact List.mem_append_right _ (mem_entries.mpr ⟨rfl, by simp [Point.ending]⟩)
  obtain ⟨e, he, -, hi, hd⟩ := mem_account_entries.mp hmem
  exact ⟨e, mem_chronicle.mpr ⟨he, hi⟩, by rw [hd]; rfl⟩

/-! ### Where a machine is listed -/

theorem Run.grows {t : System} (h : Run t log s) : t.store.origins.Grows s.store.origins := by
  refine Run.induct (P := fun _ u => t.store.origins.Grows u.store.origins) (fun i b hb => hb) ?_ h
  intro log notes u v _ ih hg
  cases hg with
  | pace hp hq => exact fun i b hb => hq.grows i b (ih i b hb)
  | _ => exact ih

/-- What is ever listed for a machine is the record that its create made. -/
theorem Run.maker_of_lists (h : Run (.new backend catalog now) log s) (hf : Fresh log) (he : e ∈ log)
    (hm : e.deed.machine? = some machine) {pre : List Note} {t : System} (ht : Run (.new backend catalog now) pre t)
    (hg : t.store.origins.Grows s.store.origins) (hl : t.store.Lists machine) :
    ∃ i b, Maker log s e.strand.call i b ∧ t.store.directory.find? b.id = some i := by
  obtain ⟨id, i, r, hi, hr, hor⟩ := hl
  obtain ⟨b, hb, rfl⟩ := ht.orderly.placed id i hi
  obtain rfl : b = r.origin := Option.some.inj (hb.symm.trans (Store.origins_eq hr))
  obtain ⟨call, hmaker⟩ := h.maker (hg i _ hb)
  have hid : r.origin.machine.id = machine.id := by
    rcases hor with hid | hmachine
    · exact hmaker.named.symm.trans hid
    · exact congrArg Machine.Handle.id hmachine
  exact ⟨i, _, h.maker_of_machine hf he hm (hg i _ hb) hid, hi⟩

/-! ### Machines that creates lost -/

theorem Run.discarded (h : Run (.new backend catalog now) log s) (hf : Fresh log) (he : e ∈ log)
    (hm : e.deed.machine? = some machine) (hl : Loss log s e.strand.call machine) :
    Discarded (.new backend catalog now) log s e.strand.call machine := by
  -- Without a record, nobody but the create has to do with the machine.
  have alone {i : Nat} {b : Origin} : ¬Maker log s e.strand.call i b := Loss.not_maker hl
  have own : ∀ n ∈ log, n.deed.dooms? = some machine → n.strand.call = e.strand.call := by
    intro n hn hd
    obtain hcall | ⟨id, p, i, b, -, -, hmaker, -⟩ := h.owner hf he hm hn (Deed.about?_of_dooms? hd)
    · exact hcall
    · exact absurd hmaker alone
  obtain ⟨spec, suffix, why, es, hres, hwhy, hes, hcount⟩ := hl
  obtain ⟨pre, n, post, hlog, hcall, hentry, hpre⟩ := split_of_account hes
  constructor
  · refine ⟨spec, suffix, why, hres, hwhy, pre, n, post, hlog, hcall, (Prod.mk.inj hentry).2, ?_⟩
    rw [← hcount]
    refine @countP_of_call (fun d => d.dooms? = some machine) pre e.strand.call es hpre fun n hn hd => ?_
    exact own n (hlog ▸ List.mem_append_left _ hn) (of_decide_eq_true hd)
  · rw [@countP_of_call (fun d => d.dooms? = some machine) log e.strand.call _ hes fun n hn hd =>
      own n hn (of_decide_eq_true hd), List.countP_append, hcount]
    rfl
  · exact own
  · intro pre post t ht htail heq hlists
    obtain ⟨i, b, hmaker, -⟩ := h.maker_of_lists hf he hm ht htail.grows hlists
    exact alone hmaker

/-! ### Machines that have a record -/

/-- A destroy that succeeds is noted at the record of the machine. -/
theorem Run.destroyed_at (h : Run (.new backend catalog now) log s) (hf : Fresh log) (he : e ∈ log)
    (hm : e.deed.machine? = some machine) (hmaker : Maker log s e.strand.call i b) {n : Note} (hn : n ∈ log)
    (hd : n.deed.destroyed? = some machine) : n.record = some i := by
  obtain hcall | ⟨id, p, j, b', -, hj, hmaker', -⟩ := h.owner hf he hm hn (Deed.about?_of_destroyed? hd).1
  · -- The create that made the record has no machine destroyed.
    obtain ⟨suffix, p, vm, rest, -, hpos, hes⟩ := hmaker.course
    have hmem : machine ∈ ((account e.strand.call log).map Note.entry).filterMap (·.2.destroyed?) :=
      List.mem_filterMap.mpr ⟨n.entry, List.mem_map_of_mem (mem_account.mpr ⟨hn, hcall⟩), hd⟩
    rw [hes] at hmem
    obtain rfl | rfl | rfl := hpos <;> cases hmem
  · rw [hj, hmaker.record_eq hmaker']

/-- The addresses of a machine that has a record are told once, and the first one is that of the record. -/
theorem Run.address (h : Run (.new backend catalog now) log s) (hf : Fresh log) (he : e ∈ log)
    (hm : e.deed.machine? = some machine) (hmaker : Maker log s e.strand.call i b) (hb : b.machine = machine) :
    ∃ rest, (∃ n ∈ log, n.strand.call = e.strand.call ∧
      n.deed = .hears (.backend (.addresses machine)) (.ok (b.address :: rest))) ∧
        ∀ n ∈ log, ∀ found, n.deed = .hears (.backend (.addresses machine)) found →
          found = .ok (b.address :: rest) := by
  subst hb
  obtain ⟨suffix, p, vm, rest, -, hpos, hes⟩ := hmaker.course
  refine ⟨rest, ?_, fun n hn found hd => ?_⟩
  · have hmem : (none, .hears (.backend (.addresses b.machine)) (.ok (b.address :: rest))) ∈
        (account e.strand.call log).map Note.entry := by
      rw [hes]
      exact List.mem_append_left _ (mem_entries.mpr ⟨rfl, by simp [located]⟩)
    obtain ⟨n, hn, hcall, -, hd⟩ := mem_account_entries.mp hmem
    exact ⟨n, hn, hcall, hd⟩
  · obtain hcall | ⟨id, p', j, b', hp, -⟩ := h.owner hf he hm hn (by rw [hd]; rfl)
    · have hmem : n.entry ∈ (account e.strand.call log).map Note.entry :=
        List.mem_map_of_mem (mem_account.mpr ⟨hn, hcall⟩)
      rw [hes, Note.entry, hd] at hmem
      have hfound : n.record = none ∧ found = .ok (b.address :: rest) := by
        obtain rfl | rfl | rfl := hpos <;> simpa [entries, provided, located, Point.ending] using hmem
      exact hfound.2
    · -- A remove does not ask for addresses.
      have hmay := h.may hp n (mem_account.mpr ⟨hn, rfl⟩)
      rw [hd] at hmay
      cases hmay

/-- A record that is not marked when every call is over keeps its machine. -/
theorem Run.keeps (h : Run (.new backend catalog now) log s) (hf : Fresh log) (hidle : s.Idle) (he : e ∈ log)
    (hm : e.deed.machine? = some machine) {r : Record} (hr : s.store.records[i]? = some r)
    (hmaker : Maker log s e.strand.call i r.origin) (hremoved : r.removed = false) :
    Keeps log s e.strand.call machine i r := by
  obtain rfl : r.machine = machine := hmaker.machine_eq he hm
  obtain ⟨w, hsits, hlife⟩ := h.life hr
  obtain rfl := hidle.sits hsits
  have hg := hlife.guarded
  have hdoomed : doomed r none = 0 := congrArg Bool.toNat hremoved
  have hclosed : (chronicle i log).countP (·.deed.closed) = 0 := hg.closed.trans hdoomed
  have hname : r.id = r.machine.id := hmaker.named
  constructor
  · rw [← hname]
    refine (h.indexed hf i _ hmaker.origin (hmaker.enrolled hidle).2).mpr ?_
    rintro ⟨n, hn, hd⟩
    exact List.countP_eq_zero.mp ((h.closed_eq_removes hidle hr).symm.trans hclosed) n hn hd
  · exact hr
  · exact hname
  · rfl
  · exact h.address hf he hm hmaker rfl
  · obtain ⟨n, hn, hcall, hd⟩ := hmaker.connected
    exact ⟨n, (mem_chronicle.mp hn).1, hcall, hd⟩
  · exact h.closed_times hr (hg.closes.trans hdoomed) hclosed
  · intro n hn hd
    have hmem := mem_chronicle.mpr ⟨hn, h.destroyed_at hf he hm hmaker hn hd⟩
    exact List.countP_eq_zero.mp (hg.destroys.trans hdoomed) n hmem (Deed.about?_of_destroyed? hd).2

/-- A record that is marked when every call is over was removed, and its machine with it. -/
theorem Run.removed (h : Run (.new backend catalog now) log s) (hf : Fresh log) (hidle : s.Idle) (he : e ∈ log)
    (hm : e.deed.machine? = some machine) {r : Record} (hr : s.store.records[i]? = some r)
    (hmaker : Maker log s e.strand.call i r.origin) (hremoved : r.removed = true) : Removed log s machine := by
  obtain rfl : r.machine = machine := hmaker.machine_eq he hm
  obtain ⟨w, hsits, hlife⟩ := h.life hr
  obtain rfl := hidle.sits hsits
  have hg := hlife.guarded
  have hdoomed : doomed r none = 1 := congrArg Bool.toNat hremoved
  have hclosed : (chronicle i log).countP (·.deed.closed) = 1 := hg.closed.trans hdoomed
  have hname : r.id = r.machine.id := hmaker.named
  obtain ⟨last, hlast, hremoves⟩ : Noted Deed.removes i log := by
    refine List.countP_pos_iff.mp ?_
    rw [← h.closed_eq_removes hidle hr, hclosed]
    exact Nat.one_pos
  -- The call that removed the record had the machine destroyed.
  have hremove : ∃ n ∈ log, n.deed.destroyed? = some r.machine ∧
      s.result? n.strand.call (.remove r.machine.id) = some (.ok ()) := by
    obtain ⟨hmem, hi⟩ := mem_chronicle.mp hlast
    obtain ⟨id, hd⟩ := Deed.removes_iff.mp hremoves
    have hres := h.result_iff.mpr ⟨last, hmem, rfl, hd⟩
    cases h.orderly.course (System.result?_eq_some.mp hres) with
    | remove hes hc =>
      cases hc with
      | @removed j b hb hid =>
        have hentry : last.entry ∈ entries (some j) _ := hes ▸ List.mem_map_of_mem (mem_account.mpr ⟨hmem, rfl⟩)
        obtain rfl := Option.some.inj (hi.symm.trans (mem_entries.mp hentry).1)
        obtain rfl : b = r.origin := Option.some.inj (hb.symm.trans hmaker.origin)
        obtain ⟨n, hn, -, hdestroy⟩ := mem_of_map_entry hes
          (d := .hears (.backend (.destroy r.machine)) (.ok ())) (by simp [Pods.destroyed, Record.origin])
        obtain ⟨hn, hcall⟩ := mem_account.mp hn
        refine ⟨n, hn, by rw [hdestroy]; rfl, ?_⟩
        rw [hcall, ← hname, show r.id = id from hid]
        exact hres
  constructor
  · obtain ⟨n, hn, hd, -⟩ := hremove
    refine Nat.le_antisymm ?_ (List.countP_pos_iff.mpr ⟨n, hn, decide_eq_true hd⟩)
    calc log.countP (·.deed.destroyed? = some r.machine)
        = (chronicle i log).countP (·.deed.destroyed? = some r.machine) :=
          @countP_of_record (fun d => d.destroyed? = some r.machine) log i fun n hn hd =>
            h.destroyed_at hf he hm hmaker hn (of_decide_eq_true hd)
      _ ≤ (chronicle i log).countP (·.deed.destroys) :=
          List.countP_mono_left fun n _ hd => (Deed.about?_of_destroyed? (of_decide_eq_true hd)).2
      _ ≤ 1 := Nat.le_of_eq (hg.destroys.trans hdoomed)
  · exact hremove
  · exact ⟨i, r, hr, rfl, h.closed_times hr (hg.closes.trans hdoomed) hclosed⟩
  · intro hlists
    obtain ⟨j, b, hmaker', hj⟩ := h.maker_of_lists hf he hm h (fun i b hb => hb) hlists
    obtain rfl := hmaker.record_eq hmaker'
    exact (h.indexed hf i b hmaker'.origin (hmaker.enrolled hidle).2).mp hj ⟨last, hlast, hremoves⟩

theorem Keeps.lists {r : Record} (h : Keeps log s call machine i r) : s.store.Lists machine :=
  ⟨_, i, r, h.listed, h.record, .inl rfl⟩

/-- When every call is over, each machine that was provisioned has one fate. -/
theorem machines_accounted (h : Run (.new backend catalog now) log s) (hf : Fresh log) (hidle : s.Idle) (he : e ∈ log)
    (hm : e.deed.machine? = some machine) :
    ∃ fate : Fate, fate.Met (.new backend catalog now) log s e.strand.call machine ∧
      ∀ other : Fate, other.Met (.new backend catalog now) log s e.strand.call machine → other = fate := by
  obtain hl | ⟨i, b, hmaker, hb⟩ := h.outcome hidle he hm
  · refine ⟨.discarded, h.discarded hf he hm hl, fun other hother => ?_⟩
    cases other with
    | kept =>
      obtain ⟨i, r, hk⟩ := hother
      obtain ⟨j, b, hmaker, -⟩ := h.maker_of_lists hf he hm h (fun i b hb => hb) hk.lists
      exact absurd hmaker (Loss.not_maker hl)
    | removed =>
      obtain ⟨n, hn, hd, hres⟩ := Removed.remove hother
      obtain hcall | ⟨id, p, i, b, -, -, hmaker, -⟩ := h.owner hf he hm hn (Deed.about?_of_destroyed? hd).1
      · obtain ⟨spec, suffix, why, es, hcreate, -⟩ := hl
        rw [System.result?_eq_some] at hres hcreate
        cases hres.symm.trans (hcall ▸ hcreate)
      · exact absurd hmaker (Loss.not_maker hl)
    | discarded => rfl
  · obtain ⟨r, hr, rfl⟩ := Option.map_eq_some_iff.mp hmaker.origin
    cases hremoved : r.removed with
    | false =>
      have hk := h.keeps hf hidle he hm hr hmaker hremoved
      refine ⟨.kept, ⟨i, r, hk⟩, fun other hother => ?_⟩
      cases other with
      | kept => rfl
      | removed => exact absurd hk.lists (Removed.unlisted hother)
      | discarded => exact absurd hk.lists (Discarded.unlisted hother h .rest (List.append_nil log))
    | true =>
      have hgone := h.removed hf hidle he hm hr hmaker hremoved
      refine ⟨.removed, hgone, fun other hother => ?_⟩
      cases other with
      | kept =>
        obtain ⟨j, r', hk⟩ := hother
        exact absurd hk.lists hgone.unlisted
      | removed => rfl
      | discarded =>
        obtain ⟨spec, suffix, why, hfail, -⟩ := Discarded.failed hother
        obtain ⟨⟨suffix', hres⟩, -⟩ := hmaker.enrolled hidle
        rw [System.result?_eq_some] at hfail hres
        cases hfail.symm.trans hres

end

/-- In the tour every machine has its fate. -/
theorem machines_accounted_tour :
    (∃ fate : Fate, fate.Met (.new "fake" none 0) Tour.log Tour.final 0 Tour.lost ∧
      ∀ other : Fate, other.Met (.new "fake" none 0) Tour.log Tour.final 0 Tour.lost → other = fate) ∧
    (∃ fate : Fate, fate.Met (.new "fake" none 0) Tour.log Tour.final 1 Tour.gone ∧
      ∀ other : Fate, other.Met (.new "fake" none 0) Tour.log Tour.final 1 Tour.gone → other = fate) ∧
    ∃ fate : Fate, fate.Met (.new "fake" none 0) Tour.log Tour.final 2 Tour.kept ∧
      ∀ other : Fate, other.Met (.new "fake" none 0) Tour.log Tour.final 2 Tour.kept → other = fate := by
  have fresh : Fresh Tour.log := by decide +kernel
  have idle : Tour.final.Idle := by decide +kernel
  have provisioned {n : Nat} {machine : Machine.Handle} (k : Nat)
      (h : Tour.log[k]? = some ⟨0, ⟨n, 0⟩, none,
        .hears (.backend (.provision (.forPod "" "" none 0))) (.ok machine)⟩) :=
    machines_accounted Tour.run fresh idle (List.mem_of_getElem? h) rfl
  exact ⟨provisioned 1 rfl, provisioned 10 rfl, provisioned 17 rfl⟩

end PodMachines.Pods
