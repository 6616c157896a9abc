import PodMachines.Proofs.Pods.Life
import PodMachines.Proofs.Pods.Own

/-! When the state of a machine is asked for. A record's sample is what the last answered query found and was taken
    when that query was answered; a strand that asks for a new one found it too old, and keeps the lock until the
    answer is there. -/

namespace PodMachines.Pods

def Deed.queries : Deed → Bool
  | .asks (.backend (.state _)) => true
  | _ => false

/-- Whether a query ends, with an answer or without. -/
def Deed.replied : Deed → Bool
  | .hears (.backend (.state _)) _ => true
  | _ => false

def Deed.fails : Deed → Bool
  | .hears (.backend (.state _)) (.error _) => true
  | _ => false

/-- The answered queries: when the answer came, and which state of the machine it found. -/
def answers (ns : List Note) : List (Nat × Machine.State) :=
  ns.filterMap fun e => e.deed.found?.map (e.time, ·)

/-- What is known of a machine: what the last answered query found, or that it runs if there was none. -/
def lastFound (ns : List Note) : Machine.State :=
  ((answers ns).getLast?.map (·.2)).getD .running

/-- Since when it is known: when the last answer came, or when the record was made. -/
def lastSeen (createdAt : Nat) (ns : List Note) : Nat :=
  ((answers ns).getLast?.map (·.1)).getD createdAt

@[simp] theorem answers_append (ns more : List Note) : answers (ns ++ more) = answers ns ++ answers more :=
  List.filterMap_append ..

theorem lastFound_append {ns more : List Note} (h : answers more = []) : lastFound (ns ++ more) = lastFound ns := by
  rw [lastFound, answers_append, h, List.append_nil, lastFound]

theorem lastSeen_append {createdAt : Nat} {ns more : List Note} (h : answers more = []) :
    lastSeen createdAt (ns ++ more) = lastSeen createdAt ns := by
  rw [lastSeen, answers_append, h, List.append_nil, lastSeen]

/-- Why a reported state of a machine may be reported. -/
inductive Grounds (createdAt : Nat) (pre : List Note) (e : Note) (x : Machine.State) : Prop
  /-- It was fresh when the strand got the lock. -/
  | fresh {before : List Note} {l : Note} (hpre : pre = before ++ [l]) (hs : l.strand = e.strand)
      (hd : l.deed = .locks) (hage : l.time ≤ lastSeen createdAt before + Record.freshness)
  /-- The strand has just asked for it. -/
  | asked {before : List Note} {l : Note} (hpre : pre = before ++ [l]) (hs : l.strand = e.strand)
      (hd : l.deed.found? = some x)
  /-- The strand has just asked for it in vain. -/
  | failed {before : List Note} {l : Note} (hpre : pre = before ++ [l]) (hs : l.strand = e.strand)
      (hd : l.deed.fails = true)

/-- A query starts only when the one before has ended, and long after the record was made and each answer came. -/
def Due (createdAt : Nat) (pre : List Note) (e : Note) : Prop :=
  e.deed.queries = true → pre.countP (·.deed.queries) = pre.countP (·.deed.replied) ∧
    createdAt + Record.freshness < e.time ∧ ∀ a ∈ answers pre, a.1 + Record.freshness < e.time

/-- A report is of what is known. -/
def Grounded (createdAt : Nat) (pre : List Note) (e : Note) : Prop :=
  ∀ status, e.deed.told? = some status → status.machine = lastFound pre ∧ Grounds createdAt pre e status.machine

def pending : Option (Nat × Work) → Nat
  | some (_, .querying) => 1
  | _ => 0

/-- What a record keeps of its chronicle. `under` is how many queries are under way. -/
structure Sampled (now : Nat) (ns : List Note) (r : Record) (under : Nat) : Prop where
  sample : r.sample = lastFound ns
  checked : r.lastChecked = lastSeen r.createdAt ns
  created_le : r.createdAt ≤ r.lastChecked
  answers_le : ∀ a ∈ answers ns, a.1 ≤ r.lastChecked
  checked_le : r.lastChecked ≤ now
  stale : under = 1 → r.lastChecked + Record.freshness < now
  balance : ns.countP (·.deed.queries) = ns.countP (·.deed.replied) + under
  spaced : (answers ns).Pairwise fun a b => a.1 + Record.freshness < b.1
  due : Throughout (Due r.createdAt) ns
  grounded : Throughout (Grounded r.createdAt) ns

/-- Whether nothing is noted of a query, and no status is reported. -/
def Deed.Idle (d : Deed) : Prop :=
  d.queries = false ∧ d.replied = false ∧ d.found? = none ∧ d.told? = none

theorem Deed.EndsCheck.idle {d : Deed} (h : d.EndsCheck) : d.Idle := by
  obtain ⟨id, result, rfl⟩ | ⟨filter, result, rfl⟩ := h <;> exact ⟨rfl, rfl, rfl, rfl⟩

theorem Refusal.idle {ds : List Deed} (h : Refusal ds) : ∀ d ∈ ds, d.Idle := by
  cases h with
  | stop id => exact List.forall_mem_singleton.mpr ⟨rfl, rfl, rfl, rfl⟩
  | remove id => exact List.forall_mem_singleton.mpr ⟨rfl, rfl, rfl, rfl⟩
  | check hrest => exact List.forall_mem_cons.mpr ⟨⟨rfl, rfl, rfl, rfl⟩, fun d hd => (hrest d hd).idle⟩

theorem Passing.idle {ds : List Deed} (h : Passing ds) : ∀ d ∈ ds, d.Idle := by
  cases h <;> exact List.forall_mem_singleton.mpr ⟨rfl, rfl, rfl, rfl⟩

theorem countP_map_eq_zero {p : Deed → Bool} {ds : List Deed} (h : ∀ d ∈ ds, p d = false) (now : Nat) (me : Strand)
    (i : Option Nat) : (ds.map fun d => (⟨now, me, i, d⟩ : Note)).countP (fun e => p e.deed) = 0 := by
  rw [List.countP_map]
  exact List.countP_eq_zero.mpr fun d hd => by simp [h d hd]

namespace Sampled
variable {now : Nat} {ns : List Note} {r r' : Record} {under : Nat}

theorem later {next : Nat} (h : Sampled now ns r under) (hn : now ≤ next) : Sampled next ns r under :=
  { h with checked_le := Nat.le_trans h.checked_le hn, stale := fun hu => Nat.lt_of_lt_of_le (h.stale hu) hn }

theorem congr (h : Sampled now ns r under) (hs : r'.sample = r.sample) (hl : r'.lastChecked = r.lastChecked)
    (hc : r'.createdAt = r.createdAt) : Sampled now ns r' under where
  sample := hs ▸ h.sample
  checked := hl ▸ hc ▸ h.checked
  created_le := hl ▸ hc ▸ h.created_le
  answers_le := hl ▸ h.answers_le
  checked_le := hl ▸ h.checked_le
  stale := hl ▸ h.stale
  balance := h.balance
  spaced := h.spaced
  due := hc ▸ h.due
  grounded := hc ▸ h.grounded

theorem downgraded (h : Sampled now ns r under) : Sampled now ns r.downgraded under := by
  unfold Record.downgraded
  split
  · exact h
  · exact h.congr rfl rfl rfl

theorem unanswered (h : Sampled now ns r under) {more : List Note} {next : Nat} (hnone : answers more = [])
    (hb : under + more.countP (·.deed.queries) = more.countP (·.deed.replied) + next)
    (hstale : next = 1 → r.lastChecked + Record.freshness < now)
    (hdue : Throughout (fun pre => Due r.createdAt (ns ++ pre)) more)
    (hg : Throughout (fun pre => Grounded r.createdAt (ns ++ pre)) more) : Sampled now (ns ++ more) r next where
  sample := h.sample.trans (lastFound_append hnone).symm
  checked := h.checked.trans (lastSeen_append hnone).symm
  created_le := h.created_le
  answers_le := by rw [answers_append, hnone, List.append_nil]; exact h.answers_le
  checked_le := h.checked_le
  stale := hstale
  balance := by
    rw [List.countP_append, List.countP_append, h.balance]
    omega
  spaced := by rw [answers_append, hnone, List.append_nil]; exact h.spaced
  due := throughout_append.mpr ⟨h.due, hdue⟩
  grounded := throughout_append.mpr ⟨h.grounded, hg⟩

variable (me : Strand) (i : Option Nat)

theorem idle (h : Sampled now ns r under) {ds : List Deed} (hd : ∀ d ∈ ds, d.Idle) :
    Sampled now (ns ++ ds.map fun d => ⟨now, me, i, d⟩) r under := by
  refine h.unanswered ?_ ?_ h.stale ?_ ?_
  · refine List.filterMap_eq_nil_iff.mpr fun e he => ?_
    obtain ⟨d, hmem, rfl⟩ := List.mem_map.mp he
    rw [(hd d hmem).2.2.1]
    rfl
  · rw [countP_map_eq_zero (fun d hm => (hd d hm).1), countP_map_eq_zero (fun d hm => (hd d hm).2.1), Nat.zero_add]
    rfl
  · refine throughout_of_forall fun e he pre hq => ?_
    obtain ⟨d, hmem, rfl⟩ := List.mem_map.mp he
    cases (hd d hmem).1.symm.trans hq
  · refine throughout_of_forall fun e he pre status ht => ?_
    obtain ⟨d, hmem, rfl⟩ := List.mem_map.mp he
    cases (hd d hmem).2.2.2.symm.trans ht

theorem idle_singleton (h : Sampled now ns r under) {d : Deed} (hd : d.Idle) :
    Sampled now (ns ++ [⟨now, me, i, d⟩]) r under :=
  h.idle me i (List.forall_mem_singleton.mpr hd)

theorem queried (h : Sampled now ns r 0) (hf : r.isStale now = true) (machine : Machine.Handle) :
    Sampled now (ns ++ [⟨now, me, i, .asks (.backend (.state machine))⟩]) r 1 := by
  have hold : r.lastChecked + Record.freshness < now := by
    simp only [Record.isStale, decide_eq_true_eq] at hf
    omega
  refine h.unanswered rfl rfl (fun _ => hold) (throughout_cons.mpr ⟨fun _ => ?_, throughout_nil⟩)
    (throughout_cons.mpr ⟨fun _ ht => (nomatch ht), throughout_nil⟩)
  rw [List.append_nil]
  refine ⟨h.balance, Nat.lt_of_le_of_lt (Nat.add_le_add_right h.created_le _) hold, fun a ha => ?_⟩
  exact Nat.lt_of_le_of_lt (Nat.add_le_add_right (h.answers_le a ha) _) hold

/-- A query that fails leaves the sample and its time as they were. -/
theorem failed (h : Sampled now ns r 1) (machine : Machine.Handle) (f : Failure) :
    Sampled now (ns ++ [⟨now, me, i, .hears (.backend (.state machine)) (.error f)⟩]) r 0 :=
  h.unanswered rfl rfl (fun hu => nomatch hu) (throughout_cons.mpr ⟨fun hq => (nomatch hq), throughout_nil⟩)
    (throughout_cons.mpr ⟨fun _ ht => (nomatch ht), throughout_nil⟩)

theorem answered (h : Sampled now ns r 1) (machine : Machine.Handle) (x : Machine.State) :
    Sampled now (ns ++ [⟨now, me, i, .hears (.backend (.state machine)) (.ok x)⟩]) (r.sampled x now) 0 := by
  have hone : answers [⟨now, me, i, .hears (.backend (.state machine)) (.ok x)⟩] = [(now, x)] := rfl
  have hle := h.checked_le
  constructor
  · rw [lastFound, answers_append, hone, List.getLast?_concat]
    rfl
  · rw [lastSeen, answers_append, hone, List.getLast?_concat]
    rfl
  · exact Nat.le_trans h.created_le hle
  · rw [answers_append, hone]
    intro a ha
    rcases List.mem_append.mp ha with ha | ha
    · exact Nat.le_trans (h.answers_le a ha) hle
    · rw [List.mem_singleton.mp ha]
      exact Nat.le_refl _
  · exact Nat.le_refl _
  · exact fun hu => nomatch hu
  · rw [List.countP_append, List.countP_append, h.balance]
    rfl
  · rw [answers_append, hone]
    refine List.pairwise_append.mpr ⟨h.spaced, List.pairwise_singleton _ _, fun a ha b hb => ?_⟩
    rw [List.mem_singleton.mp hb]
    exact Nat.lt_of_le_of_lt (Nat.add_le_add_right (h.answers_le a ha) _) (h.stale rfl)
  · exact throughout_append.mpr ⟨h.due, throughout_cons.mpr ⟨fun hq => (nomatch hq), throughout_nil⟩⟩
  · exact throughout_append.mpr ⟨h.grounded, throughout_cons.mpr ⟨fun status ht => (nomatch ht), throughout_nil⟩⟩

theorem reported (h : Sampled now ns r under)
    (hg : Grounds r.createdAt ns ⟨now, me, i, .reports (some r.snapshot)⟩ r.sample) :
    Sampled now (ns ++ [⟨now, me, i, .reports (some r.snapshot)⟩]) r under := by
  refine h.unanswered rfl (Nat.add_comm under 0) h.stale (throughout_cons.mpr ⟨fun hq => (nomatch hq), throughout_nil⟩)
    (throughout_cons.mpr ⟨fun _ ht => ?_, throughout_nil⟩)
  cases ht
  rw [List.append_nil]
  exact ⟨h.sample, hg⟩

end Sampled

theorem Record.downgraded_createdAt (r : Record) : r.downgraded.createdAt = r.createdAt := by
  unfold downgraded
  split <;> rfl

theorem Record.downgraded_sample (r : Record) : r.downgraded.sample = r.sample := by
  unfold downgraded
  split <;> rfl

/-- A record keeps what is known of its machine, all its life. -/
theorem Life.sampled {i now : Nat} {ns : List Note} {r : Record} {w : Option (Nat × Work)} (h : Life i now ns r w) :
    Sampled now ns r (pending w) := by
  induction h with
  | born me now spec machine address agent =>
    have hdue : Throughout (Due now) [⟨now, me, some i, .hears (.connect address) (.ok agent)⟩] :=
      throughout_cons.mpr ⟨fun hq => (nomatch hq), throughout_nil⟩
    have hgrounded : Throughout (Grounded now) [⟨now, me, some i, .hears (.connect address) (.ok agent)⟩] :=
      throughout_cons.mpr ⟨fun status ht => (nomatch ht), throughout_nil⟩
    exact ⟨rfl, rfl, Nat.le_refl _, fun a ha => (nomatch ha), Nat.le_refl _, fun hu => (nomatch hu), rfl, .nil, hdue,
      hgrounded⟩
  | later h hn ih => exact ih.later hn
  | request h me ih => exact ih.congr rfl rfl rfl
  | pass h me hd ih => exact ih.idle me (some i) hd.idle
  | @turn now ns r r' me w w' ds h ht ih =>
    cases ht with
    | refuse hl hd hrest =>
      rw [List.map_cons, List.append_cons]
      have locks := ih.idle_singleton me (some i) (d := .locks) ⟨rfl, rfl, rfl, rfl⟩
      exact (locks.idle me (some i) hrest.idle).congr rfl rfl rfl
    | query hl hd hf =>
      rw [List.map_cons, List.append_cons]
      have locks := ih.idle_singleton me (some i) (d := .locks) ⟨rfl, rfl, rfl, rfl⟩
      exact locks.queried me (some i) hf r.machine
    | fresh hl hd hf hrest =>
      rw [List.map_cons, List.append_cons, List.map_cons, List.append_cons]
      have locks := (ih.idle_singleton me (some i) (d := .locks) ⟨rfl, rfl, rfl, rfl⟩).downgraded
      have hage : now ≤ lastSeen r.createdAt ns + Record.freshness := by
        simp only [Record.isStale, decide_eq_false_iff_not] at hf
        rw [← ih.checked]
        omega
      have told := locks.reported me (some i) (.fresh rfl rfl rfl (by rw [r.downgraded_createdAt]; exact hage))
      exact (told.idle me (some i) fun d hd => (hrest d hd).idle).congr rfl rfl rfl
    | sample x hrest =>
      rw [List.map_cons, List.append_cons, List.map_cons, List.append_cons]
      have found := (ih.answered me (some i) r.machine x).downgraded
      have told := found.reported me (some i) (.asked rfl rfl (by rw [Record.downgraded_sample]; rfl))
      exact (told.idle me (some i) fun d hd => (hrest d hd).idle).congr rfl rfl rfl
    | fail f hrest =>
      rw [List.map_cons, List.append_cons, List.map_cons, List.append_cons]
      have heard := (ih.failed me (some i) r.machine f).downgraded
      have told := heard.reported me (some i) (.failed rfl rfl rfl)
      exact (told.idle me (some i) fun d hd => (hrest d hd).idle).congr rfl rfl rfl
    | _ =>
      refine (ih.idle me (some i) ?_).congr rfl rfl rfl
      simp [Deed.Idle, Deed.queries, Deed.replied, Deed.found?, Deed.told?]

/-! ### The queries of one call -/

theorem Check.Course.queries_le {b : Origin} {i : Nat} {check : Check} {ds : List Deed} (h : check.Course b i ds) :
    ds.countP Deed.queries ≤ 1 := by
  cases h <;> simp [Deed.queries, List.countP_cons]

section
variable {backend : String} {o : Origins} {es : List Entry}

theorem Asking.queries_le {id : String} {p : Point (.status id)} (h : Asking o id p es) :
    es.countP (fun e => e.2.queries) ≤ 1 := by
  cases h with
  | checking hb hid h hn =>
    rw [countP_entries]
    exact h.queries_le
  | refused hb hid h =>
    rw [countP_entries, List.countP_append]
    exact h.queries_le
  | told hb hid h =>
    rw [countP_entries, List.countP_append]
    exact h.queries_le
  | _ => exact Nat.zero_le 1

theorem Rounds.nodup {targets : List Nat} {checks : List Check} {ns : List Note} (h : Rounds o targets checks ns) :
    targets.Nodup :=
  (List.pairwise_map.mp h.nodup_ids).imp fun hne heq => hne (by rw [heq])

theorem Rounds.queries_le {targets : List Nat} {checks : List Check} {ns : List Note} (h : Rounds o targets checks ns)
    (i : Nat) : (chronicle i ns).countP (·.deed.queries) ≤ 1 := by
  by_cases hi : i ∈ targets
  · obtain ⟨k, hk⟩ := List.mem_iff_getElem?.mp hi
    have hlt : k < checks.length := h.length_eq.symm ▸ (List.getElem?_eq_some_iff.mp hk).1
    obtain ⟨b, -, hc⟩ := h.course hk (List.getElem?_eq_getElem hlt)
    refine Nat.le_trans ?_ hc.queries_le
    rw [chronicle, strandDeeds, List.countP_map, List.countP_filter, List.countP_filter]
    refine List.countP_mono_left fun e he hq => ?_
    simp only [Bool.and_eq_true, decide_eq_true_eq, Function.comp_apply] at hq ⊢
    obtain ⟨j, hj, hr⟩ := h.record e he
    cases hr.symm.trans hq.2
    exact ⟨hq.1, (List.getElem?_inj (List.getElem?_eq_some_iff.mp hj).1 h.nodup).mp (hj.trans hk.symm)⟩
  · have hnil : chronicle i ns = [] := by
      refine List.filter_eq_nil_iff.mpr fun e he hr => hi ?_
      obtain ⟨j, hj, hr'⟩ := h.record e he
      cases hr'.symm.trans (of_decide_eq_true hr)
      exact List.mem_of_getElem? hj
    rw [hnil]
    exact Nat.zero_le 1

theorem Listing.queries_le {filter : Sandbox.Filter} {p : Point (.list filter)} {ns : List Note}
    (h : Listing o filter p ns) (i : Nat) : (chronicle i ns).countP (·.deed.queries) ≤ 1 := by
  cases h with
  | gathering h => exact h.queries_le i
  | @gathered targets reports ns h n hi hn =>
    have hend : (chronicle i [n]).countP (·.deed.queries) = 0 := by
      refine List.countP_eq_zero.mpr fun e he => ?_
      obtain rfl := List.mem_singleton.mp (mem_chronicle.mp he).1
      simp [hn, Deed.queries]
    rw [chronicle_append, List.countP_append, hend]
    exact h.queries_le i
  | _ => exact Nat.zero_le 1

/-- A call asks for the state of the machine of a record at most once. -/
theorem Course.queries_le {p : Running} {ns : List Note} (h : Course backend o ns p)
    (hmay : ∀ n ∈ ns, p.call.may n.deed = true) (i : Nat) :
    (chronicle i ns).countP (·.deed.queries) ≤ 1 := by
  by_cases hq : ∃ n ∈ ns, n.deed.queries = true
  · obtain ⟨n, hn, hd⟩ := hq
    have hchecks : n.deed.checks = true := by
      unfold Deed.queries at hd
      split at hd
      · rename_i heq
        rw [heq]
        rfl
      · cases hd
    obtain ⟨id, point, -, hasking⟩ | ⟨filter, point, -, hlisting⟩ := h.of_checks (hmay n hn) hchecks
    · refine Nat.le_trans ?_ hasking.queries_le
      rw [List.countP_map]
      exact List.filter_sublist.countP_le
    · exact hlisting.queries_le i
  · have hz : (chronicle i ns).countP (·.deed.queries) = 0 :=
      List.countP_eq_zero.mpr fun e he hd => hq ⟨e, (mem_chronicle.mp he).1, hd⟩
    rw [hz]
    exact Nat.zero_le 1

/-- A check whose query failed comes to its end with a status. -/
theorem Check.Course.fails {b : Origin} {i : Nat} {check : Check} {ds : List Deed} (h : check.Course b i ds)
    {d : Deed} (hd : d ∈ ds) (hf : d.fails = true) : ∃ status, check = .settled (some status) := by
  cases h with
  | fresh hid => exact ⟨_, rfl⟩
  | refreshed a hid => exact ⟨_, rfl⟩
  | refused =>
    obtain rfl | hd := List.mem_cons.mp hd
    · cases hf
    · obtain rfl := List.mem_singleton.mp hd
      cases hf
  | refreshing =>
    obtain rfl | hd := List.mem_cons.mp hd
    · cases hf
    · obtain rfl := List.mem_singleton.mp hd
      cases hf
  | _ => cases hd

theorem Asking.fails {id : String} {p : Point (.status id)} {ns : List Note} (h : Asking o id p (ns.map Note.entry))
    {n : Note} (hn : n ∈ ns) (hf : n.deed.fails = true) :
    ∃ status, (∃ e ∈ ns, e.record = n.record ∧ e.deed.told? = some status) ∧ p = .finished (.ok status) := by
  have he : n.entry ∈ ns.map Note.entry := List.mem_map_of_mem hn
  generalize hes : ns.map Note.entry = es at h he
  cases h with
  | missing =>
    have hd := List.mem_singleton.mp (mem_entries.mp he).2
    rw [show n.deed = _ from hd] at hf
    cases hf
  | checking hb hid h hcheck =>
    obtain ⟨status, rfl⟩ := h.fails (mem_entries.mp he).2 hf
    cases hcheck
  | refused hb hid h =>
    rcases List.mem_append.mp (mem_entries.mp he).2 with hd | hd
    · obtain ⟨status, hs⟩ := h.fails hd hf
      cases hs
    · rw [show n.deed = _ from List.mem_singleton.mp hd] at hf
      cases hf
  | told hb hid h =>
    obtain ⟨e, hmem, hr, hd⟩ := mem_of_map_entry hes (List.mem_append_left _ h.reported)
    exact ⟨_, ⟨e, hmem, hr.trans (mem_entries.mp he).1.symm, hd ▸ rfl⟩, rfl⟩
  | _ => cases he

theorem Rounds.fails {targets : List Nat} {checks : List Check} {ns : List Note} (h : Rounds o targets checks ns)
    {n : Note} (hn : n ∈ ns) (hf : n.deed.fails = true) :
    ∃ status, ∃ e ∈ ns, e.record = n.record ∧ e.deed.told? = some status := by
  obtain ⟨i, hi, hr⟩ := h.record n hn
  have hlt : n.strand.part < checks.length := h.length_eq.symm ▸ (List.getElem?_eq_some_iff.mp hi).1
  obtain ⟨b, -, hc⟩ := h.course hi (List.getElem?_eq_getElem hlt)
  obtain ⟨status, hs⟩ := hc.fails (mem_strandDeeds.mpr ⟨n, hn, rfl, rfl⟩) hf
  rw [hs] at hc
  obtain ⟨e, he, hpart, hd⟩ := mem_strandDeeds.mp hc.reported
  obtain ⟨j, hj, hr'⟩ := h.record e he
  rw [hpart] at hj
  cases hi.symm.trans hj
  exact ⟨status, e, he, hr'.trans hr.symm, hd ▸ rfl⟩

theorem Listing.fails {filter : Sandbox.Filter} {p : Point (.list filter)} {ns : List Note}
    (h : Listing o filter p ns) {n : Note} (hn : n ∈ ns) (hf : n.deed.fails = true) :
    ∃ status, ∃ e ∈ ns, e.record = n.record ∧ e.deed.told? = some status := by
  cases h with
  | gathering h => exact h.fails hn hf
  | gathered h hi hd =>
    rcases List.mem_append.mp hn with hn | hn
    · obtain ⟨status, e, he, hr, ht⟩ := h.fails hn hf
      exact ⟨status, e, List.mem_append_left _ he, hr, ht⟩
    · obtain rfl := List.mem_singleton.mp hn
      rw [hd] at hf
      cases hf
  | _ => cases hn

theorem Course.fails {p : Running} {ns : List Note} (h : Course backend o ns p)
    (hmay : ∀ n ∈ ns, p.call.may n.deed = true) {n : Note} (hn : n ∈ ns)
    (hf : n.deed.fails = true) :
    ∃ status, (∃ e ∈ ns, e.record = n.record ∧ e.deed.told? = some status) ∧
      ((∃ id, p = ⟨.status id, .finished (.ok status)⟩) ∨ ∃ filter point, p = ⟨.list filter, point⟩) := by
  have hchecks : n.deed.checks = true := by
    unfold Deed.fails at hf
    split at hf
    · rename_i heq
      rw [heq]
      rfl
    · cases hf
  obtain ⟨id, point, rfl, hasking⟩ | ⟨filter, point, rfl, hlisting⟩ := h.of_checks (hmay n hn) hchecks
  · obtain ⟨status, he, rfl⟩ := hasking.fails hn hf
    exact ⟨status, he, .inl ⟨id, rfl⟩⟩
  · obtain ⟨status, he⟩ := hlisting.fails hn hf
    exact ⟨status, he, .inr ⟨filter, point, rfl⟩⟩

end

/-! ### The policy -/

/-- How the states of machines are asked for in a run, by the chronicles of their records. -/
structure SamplingPolicy (log : List Note) (s : System) : Prop where
  /-- Every query is on a record, and is of the machine of that record. -/
  own : ∀ n ∈ log, ∀ machine, n.deed.probes? = some machine →
    ∃ i r, n.record = some i ∧ s.store.records[i]? = some r ∧ r.machine = machine
  /-- Between two queries on a record the first one ends. -/
  apart : ∀ {i : Nat} {pre mid post : List Note} {a b : Note}, chronicle i log = pre ++ a :: mid ++ b :: post →
    a.deed.queries = true → b.deed.queries = true → ∃ e ∈ mid, e.deed.replied = true
  /-- No call makes two queries on a record. -/
  once : ∀ i call, (chronicle i (account call log)).countP (·.deed.queries) ≤ 1
  /-- A query starts only when the record was made, and every answer before came, longer ago than a sample is fresh. -/
  due : ∀ {i : Nat} {r : Record} {pre post : List Note} {e : Note}, s.store.records[i]? = some r →
    chronicle i log = pre ++ e :: post → e.deed.queries = true →
      r.createdAt + Record.freshness < e.time ∧ ∀ a ∈ answers pre, a.1 + Record.freshness < e.time
  /-- So are any two answers apart. -/
  spaced : ∀ i, (answers (chronicle i log)).Pairwise fun a b => a.1 + Record.freshness < b.1
  /-- A record's sample and its time are those of the last answer; a failed query does not count. -/
  known : ∀ {i : Nat} {r : Record}, s.store.records[i]? = some r →
    r.sample = lastFound (chronicle i log) ∧ r.lastChecked = lastSeen r.createdAt (chronicle i log)
  /-- A query may fail at any time, and leaves the sample and its time. -/
  fails : ∀ {me : Strand} {i : Nat} {r : Record}, s.store.records[i]? = some r →
    s.work? me = some (i, .querying) → ∀ f, ∃ t, s.answer me (.backend (.state r.machine)) (.error f) = some t ∧
      ∃ r', t.store.records[i]? = some r' ∧ r'.sample = r.sample ∧ r'.lastChecked = r.lastChecked
  /-- The call whose query failed still reports, and succeeds. -/
  succeeds : ∀ n ∈ log, n.deed.fails = true → ∃ status,
    (∃ e ∈ log, e.strand.call = n.strand.call ∧ e.record = n.record ∧ e.deed.told? = some status) ∧
      ((∃ id, s.result? n.strand.call (.status id) = some (.ok status)) ∨
        ∃ filter point, s.calls[n.strand.call]? = some ⟨.list filter, point⟩)
  /-- Every report is of the last answer before it, and rests on grounds. -/
  grounded : ∀ {i : Nat} {r : Record} {pre post : List Note} {e : Note} {status : Sandbox.Status},
    s.store.records[i]? = some r → chronicle i log = pre ++ e :: post → e.deed.told? = some status →
      status.machine = lastFound pre ∧ Grounds r.createdAt pre e status.machine
  /-- What a call tells was so reported of a record that was made with the id. -/
  told : ∀ {call : Nat} {status : Sandbox.Status}, s.Tells call status → ∃ i r pre e post,
    s.store.records[i]? = some r ∧ r.id = status.id ∧ chronicle i log = pre ++ e :: post ∧ e.strand.call = call ∧
      e.deed.told? = some status ∧ status.machine = lastFound pre ∧ Grounds r.createdAt pre e status.machine

theorem Deed.replied_of_queries {d : Deed} (h : d.queries = true) : d.replied = false := by
  unfold queries at h
  split at h
  · rfl
  · cases h

theorem Sampled.apart {now under : Nat} {r : Record} {pre mid post : List Note} {a b : Note}
    (h : Sampled now (pre ++ a :: mid ++ b :: post) r under) (ha : a.deed.queries = true)
    (hb : b.deed.queries = true) : ∃ e ∈ mid, e.deed.replied = true := by
  have first := (h.due pre a (mid ++ b :: post) (by rw [List.append_assoc]; rfl) ha).1
  have second := (h.due (pre ++ a :: mid) b post rfl hb).1
  simp only [List.countP_append, List.countP_cons, ha, Deed.replied_of_queries ha, if_true] at second
  exact List.countP_pos_iff.mp (by simp only [Bool.false_eq_true, if_false] at second; omega)

section
variable {backend : String} {catalog : Option String} {now : Nat} {log : List Note} {s : System}

/-- A query that fails can always be told to its strand, which then lets the record go with what it kept. -/
theorem Run.fail (h : Run (.new backend catalog now) log s) {me : Strand} {i : Nat} {r : Record}
    (hr : s.store.records[i]? = some r) (hw : s.work? me = some (i, .querying)) (f : Failure) :
    ∃ t, s.answer me (.backend (.state r.machine)) (.error f) = some t ∧
      t.store = s.store.put i r.downgraded.released := by
  obtain ⟨p, hp, hs⟩ := h.standing hw
  have hask : Check.request? s.store (.refreshing i) = some (.backend (.state r.machine)) := by
    rw [Check.request?, hr]
    rfl
  have hcheck : Check.answer s.store (.backend (.state r.machine)) (.error f) (.refreshing i) =
      some (.settled (some r.downgraded.snapshot), s.store.put i r.downgraded.released) := by
    simp only [Check.answer, hr, Check.settle, Store.modify_eq_put hr]
  cases hs with
  | status id =>
    have ha : (Point.checking (.refreshing i) : Point (.status id)).answer s.backend me s.store
        (.backend (.state r.machine)) (.error f) =
          some (.finished (.ok r.downgraded.snapshot), s.store.put i r.downgraded.released) := by
      simp only [Point.answer, hcheck, Option.map_some]
      rfl
    exact ⟨_, System.answer_eq_some hp hask ha, rfl⟩
  | @list filter checks hc =>
    have hq : (Point.gathering checks : Point (.list filter)).request? me s.store =
        some (.backend (.state r.machine)) := by
      simp only [Point.request?, hc, Option.bind_some, hask]
    have ha : (Point.gathering checks : Point (.list filter)).answer s.backend me s.store
        (.backend (.state r.machine)) (.error f) =
          some (.ofChecks filter (checks.set me.part (.settled (some r.downgraded.snapshot))),
            s.store.put i r.downgraded.released) := by
      simp only [Point.answer, hc, hcheck, Option.map_some]
    exact ⟨_, System.answer_eq_some hp hq ha, rfl⟩

theorem sampling_policy (h : Run (.new backend catalog now) log s) : SamplingPolicy log s := by
  have sampled {i : Nat} {e : Note} (he : e ∈ chronicle i log) : ∃ r under, s.store.records[i]? = some r ∧
      Sampled s.store.now (chronicle i log) r under := by
    cases hr : s.store.records[i]? with
    | none =>
      rw [h.chronicle_eq_nil (List.getElem?_eq_none_iff.mp hr)] at he
      cases he
    | some r =>
      obtain ⟨w, -, hlife⟩ := h.life hr
      exact ⟨r, _, rfl, hlife.sampled⟩
  have mem {ns pre post : List Note} {e : Note} (hs : ns = pre ++ e :: post) : e ∈ ns :=
    hs ▸ List.mem_append_right _ (List.mem_cons_self ..)
  have grounded {i : Nat} {r : Record} {pre post : List Note} {e : Note} {status : Sandbox.Status}
      (hr : s.store.records[i]? = some r) (hs : chronicle i log = pre ++ e :: post)
      (ht : e.deed.told? = some status) : status.machine = lastFound pre ∧ Grounds r.createdAt pre e status.machine := by
    obtain ⟨w, -, hlife⟩ := h.life hr
    exact hlife.sampled.grounded pre e post hs status ht
  refine ⟨fun n hn machine hd => h.record_of_probes hn hd, ?_, ?_, ?_, ?_, ?_, ?_, ?_, grounded, ?_⟩
  · intro i pre mid post a b hs ha hb
    obtain ⟨r, under, -, hsampled⟩ := sampled (mem hs)
    rw [hs] at hsampled
    exact hsampled.apart ha hb
  · intro i call
    by_cases hcall : call < s.calls.length
    · have hp := List.getElem?_eq_getElem hcall
      exact (h.orderly.course hp).queries_le (h.may hp) i
    · rw [h.orderly.account_eq_nil hcall]
      exact Nat.zero_le 1
  · intro i r pre post e hr hs hq
    obtain ⟨w, -, hlife⟩ := h.life hr
    exact (hlife.sampled.due pre e post hs hq).2
  · intro i
    cases hr : s.store.records[i]? with
    | none =>
      rw [h.chronicle_eq_nil (List.getElem?_eq_none_iff.mp hr)]
      exact .nil
    | some r =>
      obtain ⟨w, -, hlife⟩ := h.life hr
      exact hlife.sampled.spaced
  · intro i r hr
    obtain ⟨w, -, hlife⟩ := h.life hr
    exact ⟨hlife.sampled.sample, hlife.sampled.checked⟩
  · intro me i r hr hw f
    obtain ⟨t, ht, hstore⟩ := h.fail hr hw f
    refine ⟨t, ht, r.downgraded.released, ?_, r.downgraded_sample, ?_⟩
    · rw [hstore]
      exact List.getElem?_set_self (List.getElem?_eq_some_iff.mp hr).1
    · unfold Record.released Record.downgraded
      split <;> rfl
  · intro n hn hf
    obtain ⟨p, hp, hc, hmem⟩ := h.course_of_mem hn
    obtain ⟨status, ⟨e, he, hrec, ht⟩, hcall⟩ := hc.fails (h.may hp) hmem hf
    obtain ⟨he, hcall'⟩ := mem_account.mp he
    refine ⟨status, ⟨e, he, hcall', hrec, ht⟩, ?_⟩
    obtain ⟨id, rfl⟩ | ⟨filter, point, rfl⟩ := hcall
    · exact .inl ⟨id, System.result?_eq_some.mpr hp⟩
    · exact .inr ⟨filter, point, hp⟩
  · intro call status ht
    obtain ⟨i, b, hb, hid, e, he, hcall, htold⟩ := h.reported ht
    obtain ⟨r, hr, rfl⟩ := Option.map_eq_some_iff.mp hb
    obtain ⟨pre, post, hs⟩ := List.append_of_mem he
    obtain ⟨hfound, hgrounds⟩ := grounded hr hs htold
    exact ⟨i, r, pre, e, post, hr, hid, hs, hcall, htold, hfound, hgrounds⟩

end

/-- In the tour a list asks for two machines at once, and one does not answer. -/
theorem sampling_policy_tour :
    SamplingPolicy Tour.log Tour.final ∧
      answers (chronicle 0 Tour.log) = [(30001, .running)] ∧ answers (chronicle 1 Tour.log) = [(30001, .running)] ∧
      (chronicle 1 Tour.log).countP (·.deed.queries) = 2 :=
  ⟨sampling_policy Tour.run, rfl, rfl, rfl⟩

end PodMachines.Pods
