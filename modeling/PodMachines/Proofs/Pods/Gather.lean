import PodMachines.Proofs.Pods.Alone
import PodMachines.Proofs.Pods.Interval
import PodMachines.Proofs.Pods.Sampling

/-! A list that goes on alone, where a machine is found the same as often as it is asked for. Its checks go on in any
    order; main statement: it ends, and tells of the records that it found in the directory what each is after a
    refresh. -/

namespace PodMachines.Pods
open Relation (ReflTransGen)

/-! ### A record after a check -/

namespace Record

theorem refreshed_cases (r : Record) (now : Nat) (found : Except Failure Machine.State) :
    (r.refreshed now found = r.downgraded ∧ ∀ x, r.isStale now = true → found ≠ .ok x) ∨
      ∃ x, r.refreshed now found = (r.sampled x now).downgraded := by
  cases hs : r.isStale now with
  | false =>
    refine .inl ⟨refreshed_of_fresh hs found, fun x hstale => ?_⟩
    cases hstale
  | true =>
    cases found with
    | ok x => exact .inr ⟨x, by simp only [refreshed, hs]⟩
    | error f =>
      refine .inl ⟨by simp only [refreshed, hs], fun x _ hfound => ?_⟩
      cases hfound

section
variable (r : Record) (now : Nat) (found : Except Failure Machine.State)

theorem refreshed_origin : (r.refreshed now found).origin = r.origin := by
  rcases r.refreshed_cases now found with ⟨h, -⟩ | ⟨x, h⟩
  · rw [h, downgraded_origin]
  · rw [h, downgraded_origin]
    rfl

theorem refreshed_lock : (r.refreshed now found).lock = r.lock := by
  rcases r.refreshed_cases now found with ⟨h, -⟩ | ⟨x, h⟩
  · rw [h, downgraded_lock]
  · rw [h, downgraded_lock]
    rfl

theorem refreshed_removed : (r.refreshed now found).removed = r.removed := by
  rcases r.refreshed_cases now found with ⟨h, -⟩ | ⟨x, h⟩
  · rw [h, downgraded_removed]
  · rw [h, downgraded_removed]
    rfl

end

theorem downgraded_lastChecked (r : Record) : r.downgraded.lastChecked = r.lastChecked := by
  unfold downgraded
  split <;> rfl

theorem downgraded_downgraded (r : Record) : r.downgraded.downgraded = r.downgraded := by
  by_cases h : r.sample.isRunning = true
  · simp only [downgraded, h, if_true]
  · simp only [downgraded, h, Bool.false_eq_true, if_false]

/-- Another check at the same time that finds the machine the same changes nothing. -/
theorem refreshed_refreshed (r : Record) (now : Nat) (found : Except Failure Machine.State) :
    (r.refreshed now found).refreshed now found = r.refreshed now found := by
  rcases r.refreshed_cases now found with ⟨h, hfound⟩ | ⟨x, h⟩
  · have hstale : r.downgraded.isStale now = r.isStale now := by rw [isStale, downgraded_lastChecked, isStale]
    rw [h]
    cases hs : r.isStale now with
    | false => rw [refreshed_of_fresh (hstale.trans hs), downgraded_downgraded]
    | true =>
      cases found with
      | ok y => exact absurd rfl (hfound y hs)
      | error f => simp only [refreshed, hstale.trans hs, downgraded_downgraded]
  · -- The sample is as new as can be.
    have hfresh : (r.sampled x now).downgraded.isStale now = false := by
      rw [isStale, downgraded_lastChecked]
      simp [sampled, freshness]
    rw [h, refreshed_of_fresh hfresh, downgraded_downgraded]

end Record

/-! ### The steps of checks -/

/-- How many steps a check has left at most. -/
def Check.ahead : Check → Nat
  | .arriving _ => 3
  | .queued _ => 2
  | .refreshing _ => 1
  | .settled _ => 0

/-- Where a check stands that goes on alone at the record of a sandbox, and what has become of the record. -/
inductive Check.Phase (now : Nat) (found : Except Failure Machine.State) (me : Strand) (i : Nat) (r : Record) :
    Check → Record → Prop
  | arriving : Phase now found me i r (.arriving i) r
  | queued : Phase now found me i r (.queued i) (r.taken me)
  | refreshing (hs : r.isStale now = true) : Phase now found me i r (.refreshing i) (r.taken me)
  | told : Phase now found me i r (.settled (some (r.refreshed now found).snapshot)) (r.refreshed now found)

/-- A record that a check can be made of at once. -/
structure Record.Ready (r : Record) : Prop where
  free : r.lock = .free
  present : r.removed = false

/-- A list's checks of the records at some places, from a store on. -/
structure Gathers {V G : Type} (manners : Manners V G) (call : Nat) (s : Store) (o : Outer V G) (targets : List Nat)
    (checks : List Check) (t : Store) : Prop where
  length_eq : checks.length = targets.length
  rest : t = { s with records := t.records }
  others : ∀ i, i ∉ targets → t.records[i]? = s.records[i]?
  phase : ∀ {k i : Nat} {r : Record}, targets[k]? = some i → s.records[i]? = some r → ∃ check r',
    checks[k]? = some check ∧ t.records[i]? = some r' ∧
      check.Phase s.now (manners.state (o.machine r.machine)).1 ⟨call, k⟩ i r r'

section
variable {V G : Type} {manners : Manners V G} {backend : String} {call : Nat} {s t u : Store} {o o' : Outer V G}
  {targets : List Nat} {checks : List Check} {filter : Sandbox.Filter} {now i : Nat} {me : Strand} {r r' : Record}
  {check next : Check}

/-! ### One check -/

theorem Check.Phase.step (h : check.Phase t.now (manners.state (o.machine r.machine)).1 me i r r')
    (hr : t.records[i]? = some r') (hready : r.Ready) (hfixed : ∀ v, (manners.state v).2 = v)
    (hs : check.Stride manners me t o next u o') :
    ∃ r'', next.Phase t.now (manners.state (o.machine r.machine)).1 me i r r'' ∧ u = t.put i r'' ∧ o' = o ∧
      next.ahead < check.ahead := by
  cases h with
  | arriving =>
    obtain ⟨rfl, rfl, rfl⟩ := Check.stride_arriving.mp hs
    exact ⟨_, .queued, Store.requestLock_eq hr hready.free me, rfl, Nat.lt_succ_self 2⟩
  | queued =>
    obtain ⟨rfl, ⟨hd, -, -⟩ | ⟨-, hstale, rfl, rfl⟩ | ⟨-, hstale, rfl, rfl⟩⟩ :=
      (Check.stride_queued hr hready.free).mp hs
    · cases hready.present.symm.trans hd
    · exact ⟨_, .refreshing hstale, (Store.put_self hr).symm, rfl, Nat.lt_succ_self 1⟩
    · rw [← Record.refreshed_of_fresh hstale (manners.state (o'.machine r.machine)).1]
      exact ⟨_, .told, rfl, rfl, Nat.zero_lt_succ 1⟩
  | refreshing hstale =>
    obtain ⟨rfl, rfl, rfl⟩ := (Check.stride_refreshing hr hready.free hstale).mp hs
    rw [hfixed, Outer.setMachine_self]
    exact ⟨_, .told, rfl, rfl, Nat.zero_lt_succ 0⟩
  | told =>
    cases hs with
    | advance h => cases h
    | answer h => cases h

theorem Check.Phase.goes (h : check.Phase t.now (manners.state (o.machine r.machine)).1 me i r r')
    (hr : t.records[i]? = some r') (hready : r.Ready) (hc : check.report? = none) :
    ∃ next u o', check.Stride manners me t o next u o' := by
  cases h with
  | arriving => exact ⟨_, _, _, Check.stride_arriving.mpr ⟨rfl, rfl, rfl⟩⟩
  | queued =>
    have hd := hready.present
    cases hs : r.isStale t.now with
    | true => exact ⟨_, _, _, (Check.stride_queued hr hready.free).mpr ⟨rfl, .inr (.inl ⟨hd, hs, rfl, rfl⟩)⟩⟩
    | false => exact ⟨_, _, _, (Check.stride_queued hr hready.free).mpr ⟨rfl, .inr (.inr ⟨hd, hs, rfl, rfl⟩)⟩⟩
  | refreshing hstale => exact ⟨_, _, _, (Check.stride_refreshing hr hready.free hstale).mpr ⟨rfl, rfl, rfl⟩⟩
  | told => cases hc

/-! ### All checks -/

/-- The records that a list checks are there, once each, and can be checked at once. -/
structure Store.Open (s : Store) (targets : List Nat) : Prop where
  nodup : targets.Nodup
  ready : ∀ i ∈ targets, ∃ r, s.records[i]? = some r ∧ r.Ready

theorem gathers_start : Gathers manners call s o targets (targets.map .arriving) s where
  length_eq := List.length_map _
  rest := rfl
  others _ _ := rfl
  phase := by
    intro k i r hk hr
    exact ⟨.arriving i, r, by rw [List.getElem?_map, hk]; rfl, hr, .arriving⟩

theorem Gathers.now_eq (h : Gathers manners call s o targets checks t) : t.now = s.now := by
  rw [h.rest]

theorem Gathers.step (h : Gathers manners call s o targets checks t) (hopen : s.Open targets)
    (hfixed : ∀ v, (manners.state v).2 = v) {k : Nat} (hc : checks[k]? = some check)
    (hs : check.Stride manners ⟨call, k⟩ t o next u o') :
    Gathers manners call s o targets (checks.set k next) u ∧ o' = o ∧ next.ahead < check.ahead := by
  have hk : k < targets.length := h.length_eq ▸ (List.getElem?_eq_some_iff.mp hc).1
  have htarget := List.getElem?_eq_getElem hk
  generalize targets[k] = i at htarget
  obtain ⟨r, hr, hready⟩ := hopen.ready i (List.mem_of_getElem? htarget)
  obtain ⟨check', r', hc', hr', hphase⟩ := h.phase htarget hr
  cases hc.symm.trans hc'
  rw [← h.now_eq] at hphase
  obtain ⟨r'', hnext, rfl, rfl, hless⟩ := hphase.step hr' hready hfixed hs
  rw [h.now_eq] at hnext
  refine ⟨⟨?_, ?_, ?_, ?_⟩, rfl, hless⟩
  · rw [List.length_set, h.length_eq]
  · rw [h.rest]
    rfl
  · intro j hj
    have hij : i ≠ j := fun hij => hj (hij ▸ List.mem_of_getElem? htarget)
    rw [Store.put, List.getElem?_set_ne hij, h.others j hj]
  · intro l j q hl hq
    by_cases hlk : l = k
    · subst hlk
      obtain rfl := Option.some.inj (hl.symm.trans htarget)
      cases hq.symm.trans hr
      exact ⟨next, r'', List.getElem?_set_self (List.getElem?_eq_some_iff.mp hc).1, Store.put_getElem? hr' r'', hnext⟩
    · -- Another check is at another record.
      have hij : i ≠ j := by
        rintro rfl
        exact hlk ((List.getElem?_inj (List.getElem?_eq_some_iff.mp hl).1 hopen.nodup).mp (hl.trans htarget.symm))
      obtain ⟨check', q', hcheck', hq', hphase'⟩ := h.phase hl hq
      exact ⟨check', q', by rw [List.getElem?_set_ne (Ne.symm hlk), hcheck'],
        by rw [Store.put, List.getElem?_set_ne hij, hq'], hphase'⟩

/-- A store of which the records at some places were refreshed. `found` is how machines are found. -/
structure Store.Refreshed (s : Store) (found : Machine.Handle → Except Failure Machine.State) (targets : List Nat)
    (t : Store) : Prop where
  rest : t = { s with records := t.records }
  others : ∀ i, i ∉ targets → t.records[i]? = s.records[i]?
  checked : ∀ {i : Nat} {r : Record}, i ∈ targets → s.records[i]? = some r →
    t.records[i]? = some (r.refreshed s.now (found r.machine))

/-- What is reported of a record after a refresh. -/
def Store.seen (s : Store) (found : Machine.Handle → Except Failure Machine.State) (i : Nat) : Option Sandbox.Status :=
  s.records[i]?.map fun r => (r.refreshed s.now (found r.machine)).snapshot

/-- How a machine is found that is asked for its state. -/
def Manners.found (manners : Manners V G) (o : Outer V G) (machine : Machine.Handle) : Except Failure Machine.State :=
  (manners.state (o.machine machine)).1

/-- When all checks are over, every record is refreshed, and reported as it is then. -/
theorem Gathers.settled {reports : List (Option Sandbox.Status)}
    (h : Gathers manners call s o targets (reports.map .settled) t) (hopen : s.Open targets) :
    s.Refreshed (manners.found o) targets t ∧ reports = targets.map (s.seen (manners.found o)) := by
  -- What the check of a record has reported, and the record then.
  have settled {k i : Nat} {r : Record} (hk : targets[k]? = some i) (hr : s.records[i]? = some r) :
      reports[k]? = some (some (r.refreshed s.now (manners.found o r.machine)).snapshot) ∧
        t.records[i]? = some (r.refreshed s.now (manners.found o r.machine)) := by
    obtain ⟨check, r', hc, hr', hphase⟩ := h.phase hk hr
    rw [List.getElem?_map] at hc
    obtain ⟨report, hreport, rfl⟩ := Option.map_eq_some_iff.mp hc
    cases hphase with
    | told => exact ⟨hreport, hr'⟩
  refine ⟨⟨h.rest, h.others, fun {i r} hi hr => ?_⟩, ?_⟩
  · obtain ⟨k, hk⟩ := List.mem_iff_getElem?.mp hi
    exact (settled hk hr).2
  · refine List.ext_getElem? fun k => ?_
    rw [List.getElem?_map]
    cases hk : targets[k]? with
    | some i =>
      obtain ⟨r, hr, -⟩ := hopen.ready i (List.mem_of_getElem? hk)
      rw [(settled hk hr).1, Option.map_some, Store.seen, hr, Option.map_some]
    | none =>
      have hlen := h.length_eq
      rw [List.length_map] at hlen
      have := List.getElem?_eq_none_iff.mp hk
      exact List.getElem?_eq_none (by omega)

theorem ends_gathering (hchecks : ∀ reports : List (Option Sandbox.Status), checks ≠ reports.map .settled)
    {result : List Sandbox.Status} :
    Ends manners backend call (c := .list filter) ⟨Point.ofChecks filter checks, t, o⟩ result u o' ↔
      ∃ k check next v p, checks[k]? = some check ∧ check.Stride manners ⟨call, k⟩ t o next v p ∧
        Ends manners backend call (c := .list filter) ⟨Point.ofChecks filter (checks.set k next), v, p⟩ result u o' := by
  obtain ⟨reports, hreports, -⟩ | ⟨-, hpoint⟩ := Point.ofChecks_cases filter checks
  · exact absurd hreports (hchecks reports)
  · rw [hpoint, ends_iff_stride (p := .gathering checks) rfl]
    constructor
    · rintro ⟨y, hy, h⟩
      obtain ⟨k, check, next, v, p, hc, hs, rfl⟩ := stride_gathering.mp hy
      exact ⟨k, check, next, v, p, hc, hs, h⟩
    · rintro ⟨k, check, next, v, p, hc, hs, h⟩
      exact ⟨_, stride_gathering.mpr ⟨k, check, next, v, p, hc, hs, rfl⟩, h⟩

theorem exists_unsettled (hchecks : ∀ reports : List (Option Sandbox.Status), checks ≠ reports.map .settled) :
    ∃ check ∈ checks, check.report? = none := by
  induction checks with
  | nil => exact absurd rfl (hchecks [])
  | cons check rest ih =>
    cases hc : check.report? with
    | none => exact ⟨check, List.mem_cons_self, hc⟩
    | some report =>
      have hcheck : check = .settled report := by
        cases check <;> cases hc
        rfl
      obtain ⟨unsettled, hmem, hnone⟩ := ih fun reports hrest => hchecks (report :: reports) (by rw [hcheck, hrest]; rfl)
      exact ⟨unsettled, List.mem_cons_of_mem _ hmem, hnone⟩

theorem Gathers.goes (h : Gathers manners call s o targets checks t) (hopen : s.Open targets)
    (hchecks : ∀ reports : List (Option Sandbox.Status), checks ≠ reports.map .settled) :
    ∃ (k : Nat) (check next : Check) (v : Store) (p : Outer V G), checks[k]? = some check ∧
      check.Stride manners ⟨call, k⟩ t o next v p := by
  obtain ⟨check, hmem, hc⟩ := exists_unsettled hchecks
  obtain ⟨k, hk⟩ := List.mem_iff_getElem?.mp hmem
  have hlt : k < targets.length := h.length_eq ▸ (List.getElem?_eq_some_iff.mp hk).1
  have htarget := List.getElem?_eq_getElem hlt
  obtain ⟨r, hr, hready⟩ := hopen.ready _ (List.mem_of_getElem? htarget)
  obtain ⟨check', r', hc', hr', hphase⟩ := h.phase htarget hr
  cases hk.symm.trans hc'
  rw [← h.now_eq] at hphase
  obtain ⟨next, v, p, hs⟩ := hphase.goes hr' hready hc
  exact ⟨k, check, next, v, p, hk, hs⟩

theorem Gathers.exists_ends (h : Gathers manners call s o targets checks t) (hopen : s.Open targets)
    (hfixed : ∀ v, (manners.state v).2 = v) :
    ∃ result u, Ends manners backend call (c := .list filter) ⟨Point.ofChecks filter checks, t, o⟩ result u o := by
  -- Every step of a check leaves fewer steps.
  induction hn : (checks.map Check.ahead).sum using Nat.strongRecOn generalizing checks t with
  | _ n ih =>
    obtain ⟨reports, -, hpoint⟩ | ⟨hchecks, -⟩ := Point.ofChecks_cases filter checks
    · rw [hpoint]
      exact ⟨_, t, .refl⟩
    · obtain ⟨k, check, next, v, p, hc, hs⟩ := h.goes hopen hchecks
      obtain ⟨hnext, rfl, hless⟩ := h.step hopen hfixed hc hs
      have hsum := sum_set (l := checks.map Check.ahead) (k := k) (by rw [List.getElem?_map, hc]; rfl) next.ahead
      rw [← List.map_set] at hsum
      obtain ⟨result, u, hends⟩ := ih _ (by omega) hnext rfl
      exact ⟨result, u, (ends_gathering hchecks).mpr ⟨k, check, next, v, p, hc, hs, hends⟩⟩

theorem Gathers.of_ends (h : Gathers manners call s o targets checks t) (hopen : s.Open targets)
    (hfixed : ∀ v, (manners.state v).2 = v) {result : List Sandbox.Status}
    (hends : Ends manners backend call (c := .list filter) ⟨Point.ofChecks filter checks, t, o⟩ result u o') :
    o' = o ∧ s.Refreshed (manners.found o) targets u ∧
      result = (targets.filterMap (s.seen (manners.found o))).filter filter.selects := by
  induction hn : (checks.map Check.ahead).sum using Nat.strongRecOn generalizing checks t with
  | _ n ih =>
    obtain ⟨reports, rfl, hpoint⟩ | ⟨hchecks, -⟩ := Point.ofChecks_cases filter checks
    · rw [hpoint] at hends
      obtain ⟨rfl, rfl, rfl⟩ := ends_finished.mp hends
      obtain ⟨hrefreshed, rfl⟩ := h.settled hopen
      refine ⟨rfl, hrefreshed, ?_⟩
      rw [List.filterMap_map]
      rfl
    · obtain ⟨k, check, next, v, p, hc, hs, hrest⟩ := (ends_gathering hchecks).mp hends
      obtain ⟨hnext, rfl, hless⟩ := h.step hopen hfixed hc hs
      have hsum := sum_set (l := checks.map Check.ahead) (k := k) (by rw [List.getElem?_map, hc]; rfl) next.ahead
      rw [← List.map_set] at hsum
      exact ih _ (by omega) hnext hrest rfl

/-! ### The list -/

theorem Store.mem_listed : i ∈ Point.listed s filter ↔
    ∃ id, s.directory.find? id = some i ∧ ∀ name, filter.id = some name → name = id := by
  unfold Point.listed
  cases hid : filter.id with
  | some name =>
    simp only [Option.mem_toList]
    constructor
    · intro hi
      exact ⟨name, hi, fun other hother => (Option.some.inj hother).symm⟩
    · rintro ⟨id, hi, hname⟩
      rw [hname name rfl]
      exact hi
  | none =>
    constructor
    · intro hi
      obtain ⟨⟨id, j⟩, hmem, rfl⟩ := List.mem_map.mp hi
      exact ⟨id, Table.find?_of_mem hmem, nofun⟩
    · rintro ⟨id, hi, -⟩
      exact Table.mem_values_of_find? hi

theorem Store.Calm.open (hcalm : s.Calm) (hp : s.Placed) (filter : Sandbox.Filter) : s.Open (Point.listed s filter) where
  nodup := (Rounds.start hp filter).nodup
  ready := by
    intro i hi
    obtain ⟨id, hi, -⟩ := mem_listed.mp hi
    obtain ⟨r, hr, -⟩ := hp.record hi
    exact ⟨r, hr, hcalm.locks hr, hcalm.present hi hr⟩

section
variable (hcalm : s.Calm) (hp : s.Placed) (hfixed : ∀ v, (manners.state v).2 = v)
include hcalm hp hfixed

theorem exists_ends_list : ∃ result t, Ends manners backend call ⟨.initial (.list filter), s, o⟩ result t o := by
  obtain ⟨result, t, h⟩ := gathers_start.exists_ends (hcalm.open hp filter) hfixed
  exact ⟨result, t, (ends_initial rfl rfl).mpr ⟨Guard.ne_writer hcalm.guard, h⟩⟩

/-- A list tells of the sandboxes that it finds and its filter selects, as they are after a refresh. -/
theorem Ends.of_list {result : List Sandbox.Status}
    (h : Ends manners backend call (c := .list filter) ⟨.initial (.list filter), s, o⟩ result t o') :
    o' = o ∧ s.Refreshed (manners.found o) (Point.listed s filter) t ∧
      result = ((Point.listed s filter).filterMap (s.seen (manners.found o))).filter filter.selects :=
  gathers_start.of_ends (hcalm.open hp filter) hfixed ((ends_initial rfl rfl).mp h).2

end

end

/-! ### What a list tells -/

section
variable {V G : Type} {s t : Store} {found : Machine.Handle → Except Failure Machine.State} {filter : Sandbox.Filter}
  {status : Sandbox.Status}

/-- This is how a sandbox in the directory is after a refresh. -/
def Store.Displays (s : Store) (found : Machine.Handle → Except Failure Machine.State) (status : Sandbox.Status) : Prop :=
  ∃ i r, s.directory.find? status.id = some i ∧ s.records[i]? = some r ∧
    status = (r.refreshed s.now (found r.machine)).snapshot

theorem Record.refreshed_id (r : Record) (now : Nat) (found : Except Failure Machine.State) :
    (r.refreshed now found).snapshot.id = r.id :=
  congrArg Origin.id (r.refreshed_origin now found)

theorem Store.Placed.mem_seen (hp : s.Placed) :
    status ∈ ((Point.listed s filter).filterMap (s.seen found)).filter filter.selects ↔
      s.Displays found status ∧ filter.selects status = true := by
  rw [List.mem_filter, List.mem_filterMap]
  refine and_congr_left fun hselects => ?_
  constructor
  · rintro ⟨i, hi, hseen⟩
    obtain ⟨id, hi, -⟩ := mem_listed.mp hi
    obtain ⟨r, hr, rfl⟩ := hp.record hi
    rw [seen, hr, Option.map_some, Option.some.injEq] at hseen
    subst hseen
    refine ⟨i, r, ?_, hr, rfl⟩
    rw [r.refreshed_id]
    exact hi
  · rintro ⟨i, r, hi, hr, hstatus⟩
    refine ⟨i, mem_listed.mpr ⟨status.id, hi, fun name hname => ?_⟩, ?_⟩
    · simp [Sandbox.Filter.selects, hname] at hselects
      exact hselects.1.1
    · rw [seen, hr, hstatus]
      rfl

theorem Store.Placed.nodup_seen (hp : s.Placed) :
    ((((Point.listed s filter).filterMap (s.seen found)).filter filter.selects).map (·.id)).Nodup := by
  obtain ⟨ids, hids, hnames⟩ := hp.listed filter
  refine (List.filter_sublist.map _).nodup ?_
  have hmap : (Point.listed s filter).filterMap (s.seen found) =
      ((Point.listed s filter).map (s.seen found)).filterMap fun report => report := by
    rw [List.filterMap_map]
    rfl
  rw [hmap]
  refine nodup_of_reports hids fun {k status} hk => ?_
  rw [List.getElem?_map] at hk
  obtain ⟨i, hi, hseen⟩ := Option.map_eq_some_iff.mp hk
  obtain ⟨r, hr, rfl⟩ := Option.map_eq_some_iff.mp hseen
  have hname := congrArg (·[k]?) hnames
  simp only [List.getElem?_map, hi, Option.map_some, origins_eq hr] at hname
  obtain ⟨id, hid, heq⟩ := Option.map_eq_some_iff.mp hname.symm
  rw [hid, r.refreshed_id, Option.some.inj heq]
  rfl

/-- A sandbox that a list has told of is as it was told, and as it is after another refresh. -/
theorem Store.Displays.after (h : s.Displays found status) (hcalm : s.Calm) (hselects : filter.selects status = true)
    (ht : s.Refreshed found (Point.listed s filter) t) : t.guard = .free ∧ ∃ i r,
      t.directory.find? status.id = some i ∧ t.records[i]? = some r ∧ r.Ready ∧
        (r.refreshed t.now (found r.machine)).snapshot = status := by
  obtain ⟨i, r, hi, hr, hstatus⟩ := h
  have hmem : i ∈ Point.listed s filter := by
    refine Store.mem_listed.mpr ⟨status.id, hi, fun name hname => ?_⟩
    simp [Sandbox.Filter.selects, hname] at hselects
    exact hselects.1.1
  have hnow : t.now = s.now := by rw [ht.rest]
  have hmachine : (r.refreshed s.now (found r.machine)).machine = r.machine :=
    congrArg Origin.machine (r.refreshed_origin s.now (found r.machine))
  refine ⟨?_, i, r.refreshed s.now (found r.machine), ?_, ht.checked hmem hr, ⟨?_, ?_⟩, ?_⟩
  · rw [ht.rest]
    exact hcalm.guard
  · rw [ht.rest]
    exact hi
  · rw [r.refreshed_lock]
    exact hcalm.locks hr
  · rw [r.refreshed_removed]
    exact hcalm.present hi hr
  · rw [hmachine, hnow, r.refreshed_refreshed, hstatus]

end

end PodMachines.Pods
