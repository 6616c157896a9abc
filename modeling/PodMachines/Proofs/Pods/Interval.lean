import PodMachines.Proofs.Pods.Accounting
import PodMachines.Proofs.Pods.Question

/-! What a list says about the time in which it is made. It takes the records from the directory at one moment and
    checks each of them under its lock at a later one, while other calls go on. -/

namespace PodMachines.Pods

/-! ### The move at which something is noted -/

theorem Run.at_note {s t : System} {log : List Note} (h : Run s log t) {e : Note} (he : e ∈ log) :
    ∃ pre u m v post, Run s pre u ∧ u.move? m = some v ∧ Run v post t ∧ log = pre ++ u.notes m ++ post ∧
      e ∈ u.notes m := by
  induction h with
  | rest => cases he
  | @move log t u h m hm ih =>
    rcases List.mem_append.mp he with he | he
    · obtain ⟨pre, v, m', w, post, hpre, hm', hpost, rfl, hnote⟩ := ih he
      exact ⟨pre, v, m', w, post ++ t.notes m, hpre, hm', hpost.move m hm, List.append_assoc .., hnote⟩
    · exact ⟨log, t, m, u, [], h, hm, .rest, (List.append_nil _).symm, he⟩

/-! ### Snapshots -/

/-- A strand of a call lets the lock of a record go, and a status is the snapshot of the record as it leaves it. -/
def System.Shows (u v : System) (call i : Nat) (status : Sandbox.Status) : Prop :=
  ∃ (m : Move) (me : Strand) (r r' : Record), u.move? m = some v ∧ m.strand? = some me ∧ me.call = call ∧
    u.store.records[i]? = some r ∧ (∃ k, r.lock.holder = some k ∧ u.Same k me) ∧
      v.store.records[i]? = some r' ∧ r'.snapshot = status

theorem Deed.EndsCheck.told_eq {d : Deed} (h : d.EndsCheck) : d.told? = none := by
  rcases h with ⟨id, result, rfl⟩ | ⟨filter, result, rfl⟩ <;> rfl

theorem Passing.told_eq {ds : List Deed} (h : Passing ds) {d : Deed} (hd : d ∈ ds) : d.told? = none := by
  cases h <;> rw [List.mem_singleton.mp hd] <;> rfl

/-- What is reported at the end of a turn is the record as the turn leaves it. -/
theorem Turn.snapshot_eq {me : Strand} {now : Nat} {r r' : Record} {w w' : Option Work} {ds : List Deed}
    (h : Turn me now r w ds r' w') {d : Deed} (hd : d ∈ ds) {status : Sandbox.Status} (ht : d.told? = some status) :
    r'.snapshot = status := by
  have ends {rest : List Deed} (hrest : ∀ d ∈ rest, d.EndsCheck) (hmem : d ∈ rest) : False := by
    have := (hrest d hmem).told_eq
    rw [ht] at this
    cases this
  have head {a : Deed} {x : Sandbox.Status} {rest : List Deed} (ha : a.told? = none)
      (hrest : ∀ d ∈ rest, d.EndsCheck) (hmem : d ∈ a :: .reports (some x) :: rest) : x = status := by
    rcases List.mem_cons.mp hmem with rfl | hmem
    · cases ha.symm.trans ht
    · rcases List.mem_cons.mp hmem with rfl | hmem
      · exact Option.some.inj ht
      · exact (ends hrest hmem).elim
  have none {α : Prop} (hz : ds.filterMap Deed.told? = []) : α := by
    have hmem : status ∈ ds.filterMap Deed.told? := List.mem_filterMap.mpr ⟨d, hd, ht⟩
    rw [hz] at hmem
    cases hmem
  cases h with
  | fresh hl hr hf hrest => exact head rfl hrest hd
  | sample x hrest => exact head rfl hrest hd
  | fail f hrest => exact head rfl hrest hd
  | refuse hl hr hrest =>
    cases hrest with
    | check hrest =>
      rcases List.mem_cons.mp hd with rfl | hd
      · cases ht
      · rcases List.mem_cons.mp hd with rfl | hd
        · cases ht
        · exact (ends hrest hd).elim
    | _ => exact none rfl
  | _ => exact none rfl

section
variable {backend : String} {catalog : Option String} {now : Nat} {log more : List Note} {s t : System}

theorem Run.shows_of_pace (h : Run (.new backend catalog now) log s) {me : Strand} {p q : Running} {ds : List Deed}
    {st : Store} (hp : s.calls[me.call]? = some p) (hq : Pace s.backend me s.store p ds q st) {d : Deed} (hd : d ∈ ds)
    {status : Sandbox.Status} (ht : d.told? = some status) {i : Nat}
    (hi : (p.point.record? me).or (q.point.record? me) = some i) :
    ∃ r r', s.store.records[i]? = some r ∧ (∃ k, r.lock.holder = some k ∧ s.Same k me) ∧
      st.records[i]? = some r' ∧ r'.snapshot = status := by
  cases hq.touch with
  | away hnone _ _ _ =>
    rcases hnone with hnone | rfl
    · cases hnone.symm.trans hi
    · cases hd
  | pass _ hpass _ _ _ => cases (hpass.told_eq hd).symm.trans ht
  | born _ hds _ _ _ =>
    subst hds
    rw [List.mem_singleton.mp hd] at ht
    cases ht
  | request hds _ _ _ =>
    subst hds
    cases hd
  | @turn j hj r r' hr w w' hturn hst hpw _ =>
    obtain rfl := Option.some.inj (hi.symm.trans hj)
    refine ⟨r, r', hr, ?_, ?_, hturn.snapshot_eq hd ht⟩
    · cases w with
      | none => exact ⟨me, hturn.holder, rfl, fun _ _ _ => rfl⟩
      | some x =>
        have hw : s.work? me = some (i, x) := (System.work?_of_call hp rfl).trans hpw
        obtain ⟨r₀, k, hr₀, hl, hsame⟩ := h.exclusive me i x hw
        cases hr₀.symm.trans hr
        exact ⟨k, hl, hsame⟩
    · rw [hst, List.getElem?_set_self (List.getElem?_eq_some_iff.mp hr).1]

/-- What a check reports, its record is when the check lets it go. -/
theorem Run.shows (h : Run (.new backend catalog now) log s) {m : Move} (hm : s.move? m = some t) {e : Note}
    (he : e ∈ s.notes m) {status : Sandbox.Status} (ht : e.deed.told? = some status) {i : Nat}
    (hi : e.record = some i) : s.Shows t e.strand.call i status := by
  have noted {me : Strand} {p q : Running} {ds : List Deed} {st : Store} (hstrand : m.strand? = some me)
      (hp : s.calls[me.call]? = some p) (hq : Pace s.backend me s.store p ds q st) (hst : t = s.after me q st)
      (hmem : e ∈ ds.map fun d => ⟨s.store.now, me, (p.point.record? me).or (q.point.record? me), d⟩) :
      s.Shows t e.strand.call i status := by
    obtain ⟨d, hd, rfl⟩ := List.mem_map.mp hmem
    obtain ⟨r, r', hr, hl, hr', hsnap⟩ := h.shows_of_pace hp hq hd ht hi
    subst hst
    exact ⟨m, me, r, r', hm, hstrand, rfl, hr, hl, hr', hsnap⟩
  cases m with
  | advance me =>
    obtain ⟨p, q, ds, st, hp, ht', hnotes, hq⟩ := System.pace_of_advance hm
    exact noted rfl hp hq ht' (hnotes ▸ he)
  | answer me request a =>
    obtain ⟨p, q, ds, st, hp, ht', hnotes, hq⟩ := System.pace_of_answer hm
    exact noted rfl hp hq ht' (hnotes ▸ he)
  | _ => cases he

/-! ### The moment at which a list looks into the directory -/

/-- A list goes through the checks of records, or is over. -/
def Surveys (o : Origins) (filter : Sandbox.Filter) (targets : List Nat) (log : List Note) (call : Nat)
    (p : Running) : Prop :=
  ∃ checks ns, p = ⟨.list filter, .ofChecks filter checks⟩ ∧ Rounds o targets checks ns ∧
    ∀ e ∈ ns, e ∈ log ∧ e.strand.call = call

theorem Surveys.mono {o o' : Origins} {filter : Sandbox.Filter} {targets : List Nat} {log more : List Note}
    {call : Nat} {p : Running} (h : Surveys o filter targets log call p) (hg : o.Grows o') :
    Surveys o' filter targets (log ++ more) call p := by
  obtain ⟨checks, ns, hp, hr, hns⟩ := h
  exact ⟨checks, ns, hp, hr.mono hg, fun e he => ⟨List.mem_append_left _ (hns e he).1, (hns e he).2⟩⟩

theorem Surveys.after {filter : Sandbox.Filter} {targets : List Nat} {me : Strand} {p q : Running} {ds : List Deed}
    {st st' : Store} (h : Surveys st.origins filter targets log me.call p) (hq : Pace backend me st p ds q st') :
    Surveys st'.origins filter targets
      (log ++ ds.map fun d => ⟨st.now, me, (p.point.record? me).or (q.point.record? me), d⟩) me.call q := by
  obtain ⟨checks, ns, rfl, hr, hns⟩ := h
  rcases Point.ofChecks_cases filter checks with ⟨reports, rfl, hp⟩ | ⟨-, hp⟩
  · have := hq.ending_eq_nil
    rw [hp] at this
    cases this
  · rw [hp] at hq ⊢
    have hg := hq.grows
    cases hq with
    | @gather _ checks check next ds st' hc hpace =>
      obtain ⟨i, hi, hrecord⟩ := hr.target hc hpace
      have hrec : (Point.gathering checks : Point (.list filter)).record? me = some i := by
        simp [Point.record?, Point.check?, hc, hrecord]
      refine ⟨checks.set me.part next, ns ++ ds.map fun d => ⟨st.now, me, some i, d⟩, rfl,
        (hr.after hc hpace hi st.now).mono hg, fun e he => ?_⟩
      rcases List.mem_append.mp he with he | he
      · exact ⟨List.mem_append_left _ (hns e he).1, (hns e he).2⟩
      · obtain ⟨d, hd, rfl⟩ := List.mem_map.mp he
        refine ⟨List.mem_append_right _ (List.mem_map.mpr ⟨d, List.mem_append_left _ hd, ?_⟩), rfl⟩
        rw [hrec]
        rfl

/-- A list that was started has not yet looked into the directory, or checks what was there at a moment since. -/
theorem Run.surveyed {filter : Sandbox.Filter} (h : Run (.new backend catalog now) log s)
    (hrun : Run (s.start (.list filter)) more t) :
    (t.calls[s.calls.length]? = some ⟨.list filter, .entering .lookup⟩ ∨
        t.calls[s.calls.length]? = some ⟨.list filter, .inside .lookup⟩) ∨
      ∃ u since p, Passes (s.start (.list filter)) more t u since ∧ t.calls[s.calls.length]? = some p ∧
        Surveys t.store.origins filter (Point.listed u.store filter) more s.calls.length p := by
  induction hrun with
  | rest => exact .inl (.inl List.getElem?_concat_length)
  | @move more t u hrun m hm ih =>
    have hfrom : Run (.new backend catalog now) log (s.start (.list filter)) := by
      have := h.move (.start (.list filter)) rfl
      rwa [show s.notes (.start (.list filter)) = [] from rfl, List.append_nil] at this
    have hplaced := (hfrom.trans hrun).orderly.placed
    have hg := System.goes_of_move hm
    obtain ⟨ns, hns⟩ : ∃ ns, t.notes m = ns := ⟨_, rfl⟩
    rw [hns] at hg
    -- A step of another call changes nothing for the list.
    have kept (hc : ∀ p, t.calls[s.calls.length]? = some p → u.calls[s.calls.length]? = some p)
        (ho : t.store.origins.Grows u.store.origins) :
        (u.calls[s.calls.length]? = some ⟨.list filter, .entering .lookup⟩ ∨
          u.calls[s.calls.length]? = some ⟨.list filter, .inside .lookup⟩) ∨
        ∃ v since p, Passes (s.start (.list filter)) (more ++ t.notes m) u v since ∧
          u.calls[s.calls.length]? = some p ∧
            Surveys u.store.origins filter (Point.listed v.store filter) (more ++ t.notes m) s.calls.length p := by
      rcases ih with ih | ⟨v, since, p, hpass, hp, hs⟩
      · exact .inl (ih.imp (hc _) (hc _))
      · exact .inr ⟨v, _, p, hpass.move hm, hc p hp, hs.mono ho⟩
    cases hg with
    | start c =>
      refine kept (fun p hp => ?_) fun _ _ hb => hb
      exact (List.getElem?_append_left (List.getElem?_eq_some_iff.mp hp).1).trans hp
    | pass milliseconds => exact kept (fun p hp => hp) fun _ _ hb => hb
    | enableImageBoot => exact kept (fun p hp => hp) fun _ _ hb => hb
    | @pace me p q ds st hp hq =>
      by_cases hme : me.call = s.calls.length
      · have hself : (t.after me q st).calls[s.calls.length]? = some q := by
          rw [← hme]
          exact List.getElem?_set_self (List.getElem?_eq_some_iff.mp hp).1
        rw [hme] at hp
        rcases ih with (ih | ih) | ⟨v, since, p', hpass, hp', hs⟩
        · cases hp.symm.trans ih
          cases hq with
          | enter hg => exact .inl (.inr hself)
        · cases hp.symm.trans ih
          cases hq with
          | listed =>
            refine .inr ⟨t, _, _, Passes.move ⟨more, (List.append_nil _).symm, hrun, .rest⟩ hm, hself, ?_⟩
            exact ⟨_, [], rfl, Rounds.start hplaced filter, fun e he => nomatch he⟩
          | told hcall result => rcases hcall with ⟨_, e⟩ | ⟨_, e⟩ | e <;> cases e
        · cases hp.symm.trans hp'
          refine .inr ⟨v, _, q, hpass.move hm, hself, ?_⟩
          rw [← hme] at hs ⊢
          rw [hns]
          exact hs.after hq
      · exact kept (fun p hp => (List.getElem?_set_ne hme).trans hp) hq.grows

/-! ### What the list says -/

/-- What a list of all sandboxes says of the time from its start to its end: `log` is noted before it and `more` since,
    between the states `s` and `t`. -/
structure Covers (log more : List Note) (s t : System) (statuses : List Sandbox.Status) : Prop where
  /-- A sandbox is told once whose create succeeded before and that no remove has marked by the end. -/
  present : ∀ {n : Nat} {spec : Sandbox.Spec} {suffix : UInt32} {id : String},
    s.result? n (.create spec suffix) = some (.ok id) →
      (∀ i, t.store.origins.Names i id → ¬Noted Deed.closed i (log ++ more)) → statuses.countP (·.id = id) = 1
  /-- A sandbox is not told whose remove succeeded before. -/
  absent : ∀ {n : Nat} {id : String}, s.result? n (.remove id) = some (.ok ()) → ∀ status ∈ statuses, status.id ≠ id
  nodup : (statuses.map (·.id)).Nodup
  /-- What is told of a sandbox is the snapshot of its record when a check of the list let the record's lock go. -/
  shown : ∀ status ∈ statuses, ∃ i pre u v post, t.store.origins.Names i status.id ∧
    Run (s.start (.list .everything)) pre u ∧ u.Shows v s.calls.length i status ∧ Run v post t

theorem selects_everything (status : Sandbox.Status) : Sandbox.Filter.everything.selects status = true := rfl

/-- What is told of some of distinct ids is told of distinct ids. -/
theorem nodup_of_reports {reports : List (Option Sandbox.Status)} {ids : List String} (hn : ids.Nodup)
    (hid : ∀ {k : Nat} {status : Sandbox.Status}, reports[k]? = some (some status) → ids[k]? = some status.id) :
    ((reports.filterMap fun report => report).map (·.id)).Nodup := by
  suffices ((reports.filterMap fun report => report).map (·.id)).Sublist ids from this.nodup hn
  clear hn
  induction reports generalizing ids with
  | nil => exact List.nil_sublist ids
  | cons report reports ih =>
    cases ids with
    | nil =>
      have untold : ∀ x ∈ report :: reports, x = none := by
        intro x hx
        obtain ⟨k, hk⟩ := List.mem_iff_getElem?.mp hx
        cases x with
        | none => rfl
        | some status => cases hid hk
      rw [List.filterMap_eq_nil_iff.mpr untold]
      exact List.Sublist.refl _
    | cons id ids =>
      have rest := ih fun {k status} hk => hid (k := k + 1) hk
      cases report with
      | none => exact rest.cons id
      | some status =>
        obtain rfl : id = status.id := Option.some.inj (hid (k := 0) rfl)
        exact rest.cons_cons _

theorem Noted.append {kind : Deed → Bool} {i : Nat} (h : Noted kind i log) (more : List Note) :
    Noted kind i (log ++ more) := by
  obtain ⟨e, he, hk⟩ := h
  exact ⟨e, by rw [chronicle_append]; exact List.mem_append_left _ he, hk⟩

/-- A create that succeeded made its record with what it was asked for, and put it under the id. -/
theorem Run.made_of_result (h : Run (.new backend catalog now) log s) {n : Nat} {spec : Sandbox.Spec} {suffix : UInt32}
    {id : String} (hr : s.result? n (.create spec suffix) = some (.ok id)) :
    ∃ i b, s.store.origins i = some b ∧ b.id = id ∧ b.spec = spec ∧ Noted Deed.enrolls i log := by
  cases h.orderly.course (System.result?_eq_some.mp hr) with
  | create hes hc =>
    cases hc with
    | @enrolled vm machine address rest agent i now hi =>
      refine ⟨i, _, hi, rfl, rfl, ?_⟩
      have hmem : (some i, .ends (.create spec suffix) (.ok machine.id)) ∈ (account n log).map Note.entry := by
        rw [hes]
        exact List.mem_append_right _ (mem_entries.mpr ⟨rfl, by simp⟩)
      obtain ⟨e, he, -, hrec, hd⟩ := mem_account_entries.mp hmem
      exact ⟨e, mem_chronicle.mpr ⟨he, hrec⟩, by rw [hd]; rfl⟩

theorem Run.enrolled_of_result (h : Run (.new backend catalog now) log s) {n : Nat} {spec : Sandbox.Spec}
    {suffix : UInt32} {id : String} (hr : s.result? n (.create spec suffix) = some (.ok id)) :
    ∃ i, s.store.origins.Names i id ∧ Noted Deed.enrolls i log := by
  obtain ⟨i, b, hb, hid, -, hnoted⟩ := h.made_of_result hr
  exact ⟨i, ⟨b, hb, hid⟩, hnoted⟩

theorem Run.removed_of_result (h : Run (.new backend catalog now) log s) {n : Nat} {id : String}
    (hr : s.result? n (.remove id) = some (.ok ())) : ∃ i, s.store.origins.Names i id ∧ Noted Deed.removes i log := by
  cases h.orderly.course (System.result?_eq_some.mp hr) with
  | remove hes hc =>
    cases hc with
    | @removed i b hb hid =>
      refine ⟨i, ⟨b, hb, hid⟩, ?_⟩
      obtain ⟨e, he, hrec, hd⟩ := mem_of_map_entry hes (d := .ends (.remove id) (.ok ())) (by simp)
      exact ⟨e, mem_chronicle.mpr ⟨(mem_account.mp he).1, hrec⟩, by rw [hd]; rfl⟩

/-- When no machine is provisioned with the id of an earlier one, one record is made with an id. -/
theorem Run.record_unique (h : Run (.new backend catalog now) log s) (hf : Fresh log) {i j : Nat} {id : String}
    (hi : s.store.origins.Names i id) (hj : s.store.origins.Names j id) : i = j := by
  obtain ⟨b, hb, rfl⟩ := hi
  obtain ⟨b', hb', hid⟩ := hj
  obtain ⟨call, hm⟩ := h.maker hb
  obtain ⟨call', hm'⟩ := h.maker hb'
  obtain ⟨e, he, rfl, hmachine⟩ := hm.provisioned
  have hsame := h.maker_of_machine hf he hmachine hb' (hm'.named.symm.trans (hid.trans hm.named))
  exact hm.record_eq hsame

/-- What a list has told when it is over, and of which records. -/
theorem Run.told (h : Run (.new backend catalog now) log s) (hrun : Run (s.start (.list .everything)) more t)
    {statuses : List Sandbox.Status} (hr : t.result? s.calls.length (.list .everything) = some statuses) :
    ∃ (u : System) (since : List Note) (reports : List (Option Sandbox.Status)) (ns : List Note),
      Passes (s.start (.list .everything)) more t u since ∧
        Rounds t.store.origins u.store.directory.values (reports.map .settled) ns ∧ (∀ e ∈ ns, e ∈ more) ∧
          statuses = reports.filterMap fun report => report := by
  have hend := System.result?_eq_some.mp hr
  rcases h.surveyed hrun with (hp | hp) | ⟨u, since, p, hpass, hp, checks, ns, rfl, hrounds, hns⟩
  · cases hp.symm.trans hend
  · cases hp.symm.trans hend
  · rcases Point.ofChecks_cases .everything checks with ⟨reports, rfl, hq⟩ | ⟨-, hq⟩
    · rw [hq] at hp
      cases hp.symm.trans hend
      refine ⟨u, since, reports, ns, hpass, hrounds, fun e he => (hns e he).1, ?_⟩
      exact List.filter_eq_self.mpr fun status _ => selects_everything status
    · rw [hq] at hp
      cases hp.symm.trans hend

/-- A check of a list that is over stands at its target and has told of it. -/
theorem Rounds.settled {o : Origins} {targets : List Nat} {reports : List (Option Sandbox.Status)} {ns : List Note}
    (h : Rounds o targets (reports.map .settled) ns) {k i : Nat} (hi : targets[k]? = some i) :
    ∃ report b, reports[k]? = some report ∧ o i = some b ∧ Check.Course b i (.settled report) (strandDeeds k ns) := by
  have hk : k < reports.length := by
    have := h.length_eq
    rw [List.length_map] at this
    exact this ▸ (List.getElem?_eq_some_iff.mp hi).1
  have hc : (reports.map Check.settled)[k]? = some (.settled reports[k]) := by
    rw [List.getElem?_map, List.getElem?_eq_getElem hk]
    rfl
  obtain ⟨b, hb, hcourse⟩ := h.course hi hc
  exact ⟨_, b, List.getElem?_eq_getElem hk, hb, hcourse⟩

theorem list_covers (h : Run (.new backend catalog now) log s) (hrun : Run (s.start (.list .everything)) more t)
    (hf : Fresh (log ++ more)) {statuses : List Sandbox.Status}
    (hr : t.result? s.calls.length (.list .everything) = some statuses) : Covers log more s t statuses := by
  have hstart : Run (.new backend catalog now) log (s.start (.list .everything)) := by
    have := h.move (.start (.list .everything)) rfl
    rwa [show s.notes (.start (.list .everything)) = [] from rfl, List.append_nil] at this
  have hall := hstart.trans hrun
  obtain ⟨u, since, reports, ns, ⟨before, rfl, hbefore, hsince⟩, hrounds, hns, rfl⟩ := h.told hrun hr
  have hu := hstart.trans hbefore
  have hfu : Fresh (log ++ before) := by
    rw [← List.append_assoc] at hf
    exact hf.of_append
  -- The record under a key, when the list looks, was made with it.
  have keyed {i : Nat} (hi : i ∈ u.store.directory.values) :
      ∃ b, u.store.origins i = some b ∧ u.store.directory.find? b.id = some i := by
    obtain ⟨⟨key, _⟩, hmem, rfl⟩ := List.mem_map.mp hi
    have hfind := Table.find?_of_mem hmem
    obtain ⟨b, hb, rfl⟩ := hu.orderly.placed key _ hfind
    exact ⟨b, hb, hfind⟩
  obtain ⟨ids, hids, hnames⟩ := hrounds.distinct
  have named {k : Nat} {status : Sandbox.Status} (hk : reports[k]? = some (some status)) :
      ids[k]? = some status.id := by
    have hlt : k < u.store.directory.values.length := by
      rw [← hrounds.length_eq, List.length_map]
      exact (List.getElem?_eq_some_iff.mp hk).1
    obtain ⟨report, b, hreport, hb, hcourse⟩ := hrounds.settled (List.getElem?_eq_getElem hlt)
    cases hk.symm.trans hreport
    have := congrArg (·[k]?) hnames
    simp only [List.getElem?_map, List.getElem?_eq_getElem hlt, Option.map_some, hb, ← hcourse.id_eq] at this
    obtain ⟨id, hid, heq⟩ := Option.map_eq_some_iff.mp this.symm
    exact hid.trans heq
  have hnodup := nodup_of_reports hids named
  refine ⟨?_, ?_, hnodup, ?_⟩
  · intro n spec suffix id hcreate hunmarked
    obtain ⟨i, ⟨b, hb, rfl⟩, henrolled⟩ := h.enrolled_of_result hcreate
    have hbt := hrun.grows i b hb
    have hremoved : ¬Noted Deed.removes i (log ++ before) := by
      rintro ⟨e, he, hd⟩
      obtain ⟨e', he', -, hclosed⟩ := hu.closed_of_removes he hd
      refine hunmarked i ⟨b, hbt, rfl⟩ ⟨e', ?_, hclosed⟩
      rw [← List.append_assoc, chronicle_append]
      exact List.mem_append_left _ he'
    have hlisted := (hu.indexed hfu i b (hbefore.grows i b hb) (henrolled.append before)).mpr hremoved
    obtain ⟨k, hk⟩ := List.mem_iff_getElem?.mp (Table.mem_values_of_find? hlisted)
    obtain ⟨report, b', hreport, hb', hcourse⟩ := hrounds.settled hk
    cases hb'.symm.trans hbt
    cases report with
    | none =>
      -- Its check was refused, so the connection had been closed.
      obtain ⟨e, he, hpart, hd⟩ := mem_strandDeeds.mp hcourse.reported
      obtain ⟨i', hi', hrec⟩ := hrounds.record e he
      rw [hpart] at hi'
      cases hi'.symm.trans hk
      obtain ⟨r, hr', -⟩ := Option.map_eq_some_iff.mp hbt
      obtain ⟨w, -, hlife⟩ := hall.life hr'
      have hmem := mem_chronicle.mpr ⟨List.mem_append_right log (hns e he), hrec⟩
      obtain ⟨pre, post, hsplit⟩ := List.append_of_mem hmem
      have hone := (hlife.guarded.ordered pre e post hsplit).refuses (by rw [hd]; rfl)
      obtain ⟨e', he', hclosed⟩ := List.countP_pos_iff.mp (hone ▸ Nat.one_pos)
      exact absurd ⟨e', hsplit ▸ List.mem_append_left _ he', hclosed⟩ (hunmarked i ⟨b, hbt, rfl⟩)
    | some status =>
      have hmem : status ∈ reports.filterMap fun report => report :=
        List.mem_filterMap.mpr ⟨_, List.mem_of_getElem? hreport, rfl⟩
      rw [← hcourse.id_eq]
      have hcount := hnodup.count.trans (if_pos (List.mem_map_of_mem hmem))
      rw [List.count_eq_countP, List.countP_map] at hcount
      exact hcount
  · rintro n id hremove status hstatus rfl
    obtain ⟨i, hname, hremoves⟩ := h.removed_of_result hremove
    obtain ⟨report, hreport, rfl⟩ := List.mem_filterMap.mp hstatus
    obtain ⟨k, hk⟩ := List.mem_iff_getElem?.mp hreport
    have hlt : k < u.store.directory.values.length := by
      rw [← hrounds.length_eq, List.length_map]
      exact (List.getElem?_eq_some_iff.mp hk).1
    obtain ⟨report, b, hreport, hb, hcourse⟩ := hrounds.settled (List.getElem?_eq_getElem hlt)
    cases hk.symm.trans hreport
    obtain ⟨b', hb', hlisted⟩ := keyed (List.getElem_mem hlt)
    cases hb.symm.trans (hsince.grows _ _ hb')
    obtain rfl := hu.record_unique hfu (hname.mono hbefore.grows) ⟨b, hb', hcourse.id_eq.symm⟩
    have hremoves := hremoves.append before
    exact (hu.indexed hfu _ b hb' (hu.reached.removed hremoves)).mp hlisted hremoves
  · intro status hstatus
    obtain ⟨i, b, hb, hid, e, he, hcall, htold⟩ := hall.reported (.inr ⟨_, _, hr, hstatus⟩)
    obtain ⟨he, hrec⟩ := mem_chronicle.mp he
    rcases List.mem_append.mp he with he | he
    · have := h.orderly.call_lt e he
      omega
    · obtain ⟨pre, v, m, w, post, hpre, hm, hpost, -, hnote⟩ := hrun.at_note he
      have hshows := (hstart.trans hpre).shows hm hnote htold hrec
      exact ⟨i, pre, v, w, post, ⟨b, hb, hid⟩, hpre, hcall ▸ hshows, hpost⟩

end

namespace Tour

/-- A call that has a record's lock removes its sandbox. -/
def removal (n : Nat) (machine : Machine.Handle) (agent : Connection) : List Move :=
  approach n (.remove machine.id) ++ [.answer ⟨n, 0⟩ (.backend (.destroy machine)) (.ok ()),
    .answer ⟨n, 0⟩ (.close agent) (), .advance ⟨n, 0⟩, .advance ⟨n, 0⟩]

/-- Three machines become sandboxes, and one of these is removed. -/
def earlier : List Move :=
  create 0 gone 0 ++ create 1 kept 1 ++ create 2 lost 2 ++ removal 3 lost 2

/-- A list looks into the directory. Before it checks what it found there, one sandbox is removed, one is stopped, and
    one is made. -/
def meanwhile : List Move :=
  [.advance ⟨4, 0⟩, .advance ⟨4, 0⟩] ++ removal 5 gone 0 ++ approach 6 (.stop "kept") ++ create 7 ⟨"new", "new"⟩ 3 ++
    [.advance ⟨4, 1⟩, .advance ⟨4, 0⟩, .advance ⟨4, 0⟩, .advance ⟨4, 1⟩]

def beforeList : List Note × System :=
  (System.new "fake" none 0).played earlier

def afterList : List Note × System :=
  (beforeList.2.start (.list .everything)).played meanwhile

end Tour

/-- In the tour the list tells one sandbox, as it is after the stop. -/
theorem list_covers_tour :
    Covers Tour.beforeList.1 Tour.afterList.1 Tour.beforeList.2 Tour.afterList.2
        [⟨"kept", Tour.spec, 0, Tour.address, .notReady, .running⟩] ∧
      Tour.beforeList.2.result? 1 (.create Tour.spec 0) = some (.ok "kept") ∧
      Tour.beforeList.2.result? 3 (.remove "lost") = some (.ok ()) ∧
      Tour.afterList.2.result? 5 (.remove "gone") = some (.ok ()) :=
  ⟨list_covers (System.run_played Tour.earlier) (System.run_played Tour.meanwhile) (by decide) (by decide +kernel),
    rfl, rfl, rfl⟩

end PodMachines.Pods
