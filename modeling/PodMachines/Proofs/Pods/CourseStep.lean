import PodMachines.Proofs.Pods.Course

/-! Every step of a strand takes its call on its course, one lemma for each kind of call. -/

namespace PodMachines.Pods

/-! ### One step of a call -/

theorem Check.Course.after {me : Strand} {s t : Store} {check next : Check} {b : Origin} {i : Nat} {ds es : List Deed}
    (hp : check.Pace me s ds next t) (hb : s.origins i = some b) (hc : check.Course b i es) :
    next.Course b i (es ++ ds) := by
  have origin {r : Record} (hr : s.records[i]? = some r) : r.origin = b :=
    Option.some.inj ((Store.origins_eq hr).symm.trans hb)
  cases hp with
  | arrive j => cases hc; exact .queued
  | refuse hr hl hd => cases hc; exact .refused
  | @fresh j r hr hl hd hf =>
    cases hc
    refine .fresh ?_
    rw [← origin hr, ← r.downgraded_origin]
    rfl
  | query hr hl hd hf =>
    cases hc
    rw [← origin hr]
    exact .refreshing
  | @sample j r hr x =>
    cases hc
    obtain rfl := origin hr
    refine .refreshed (.ok x) ?_
    rw [show r.origin = (r.sampled x s.now).origin from rfl, ← (r.sampled x s.now).downgraded_origin]
    rfl
  | @fail j r hr f =>
    cases hc
    obtain rfl := origin hr
    refine .refreshed (.error f) ?_
    rw [← r.downgraded_origin]
    rfl

theorem Check.Course.record?_eq {me : Strand} {s t : Store} {check next : Check} {b : Origin} {i : Nat}
    {ds es : List Deed} (hp : check.Pace me s ds next t) (hc : check.Course b i es) : check.record? = some i := by
  cases hp <;> cases hc <;> rfl

section
variable {backend : String} {me : Strand} {s t : Store} {ds : List Deed} {q : Running} {es : List Entry}

theorem Creation.after {spec : Sandbox.Spec} {suffix : UInt32} {p : Point (.create spec suffix)}
    (h : Pace backend me s ⟨.create spec suffix, p⟩ ds q t) (hc : Creation backend t.origins spec suffix p es) :
    ∃ p', q = ⟨.create spec suffix, p'⟩ ∧
      Creation backend t.origins spec suffix p' (es ++ entries ((p.record? me).or (p'.record? me)) ds) := by
  cases h with
  | provision hv => cases hc; exact ⟨_, rfl, .provisioning _⟩
  | provisioned machine => cases hc; exact ⟨_, rfl, .addressing _ machine⟩
  | unprovisioned f => cases hc; exact ⟨_, rfl, .unprovisioned _ f⟩
  | addressed address rest =>
    cases hc with
    | addressing vm machine => exact ⟨_, rfl, .connecting vm _ address rest⟩
  | unaddressed found hw =>
    cases hc with
    | addressing vm machine => exact ⟨_, rfl, .discarding vm (.unaddressed found hw)⟩
  | connected agent =>
    cases hc with
    | connecting vm machine address rest =>
      exact ⟨_, rfl, .connected vm rest (congrArg (Option.map Record.origin) List.getElem?_concat_length)⟩
  | unconnected f =>
    cases hc with
    | connecting vm machine address rest => exact ⟨_, rfl, .discarding vm (.unconnected _ rest f)⟩
  | discarded a =>
    cases hc with
    | discarding vm h =>
      refine ⟨_, rfl, ?_⟩
      have hc : Creation backend s.origins spec suffix _ _ := .discarded vm h a
      simpa [entries, Point.record?, Point.check?] using hc
  | enter hg =>
    cases hc with
    | connected vm rest hi => exact ⟨_, rfl, .enrolling vm rest hi⟩
  | enroll id i =>
    cases hc with
    | enrolling vm rest hi => exact ⟨_, rfl, .enrolled vm rest hi⟩
  | told hcall result => rcases hcall with ⟨_, e⟩ | ⟨_, e⟩ | e <;> cases e
  | arrive i => cases hc

theorem Stopping.after {id : String} {p : Point (.stop id)} (h : Pace backend me s ⟨.stop id, p⟩ ds q t)
    (hd : s.Placed) (hc : Stopping s.origins id p es) :
    ∃ p', q = ⟨.stop id, p'⟩ ∧ Stopping s.origins id p' (es ++ entries ((p.record? me).or (p'.record? me)) ds) := by
  cases h with
  | enter hg => cases hc; exact ⟨_, rfl, .looking⟩
  | stopFound hi => cases hc; exact ⟨_, rfl, .arriving (hd _ _ hi)⟩
  | stopMissing hi => cases hc; exact ⟨_, rfl, .missing⟩
  | arrive i =>
    cases hc with
    | arriving hi => exact ⟨_, rfl, .queued hi⟩
  | stopRefused hr hl hd =>
    cases hc with
    | queued hi => exact ⟨_, rfl, .refused hi⟩
  | stopped hr hl hd =>
    cases hc with
    | queued hi => exact ⟨_, rfl, .stopped hi⟩
  | told hcall result => rcases hcall with ⟨_, e⟩ | ⟨_, e⟩ | e <;> cases e

theorem Removing.after {id : String} {p : Point (.remove id)} (h : Pace backend me s ⟨.remove id, p⟩ ds q t)
    (hd : s.Placed) (hc : Removing t.origins id p es) :
    ∃ p', q = ⟨.remove id, p'⟩ ∧ Removing t.origins id p' (es ++ entries ((p.record? me).or (p'.record? me)) ds) := by
  have origin {i : Nat} {r : Record} {b : Origin} (hr : s.records[i]? = some r) (hb : t.origins i = some b) :
      b = r.origin :=
    Option.some.inj (hb.symm.trans (h.grows i _ (Store.origins_eq hr)))
  cases h with
  | enter hg =>
    cases hc with
    | starting => exact ⟨_, rfl, .looking⟩
    | closed hb hid => exact ⟨_, rfl, .forgetting hb hid⟩
  | removeFound hi => cases hc; exact ⟨_, rfl, .arriving (hd _ _ hi)⟩
  | removeMissing hi => cases hc; exact ⟨_, rfl, .missing⟩
  | arrive i =>
    cases hc with
    | arriving hi => exact ⟨_, rfl, .queued hi⟩
  | removeRefused hr hl hd =>
    cases hc with
    | queued hi => exact ⟨_, rfl, .refused hi⟩
  | destroy hr hl hd =>
    cases hc with
    | queued hi =>
      obtain ⟨b, hb, hid⟩ := hi
      obtain rfl := origin hr hb
      exact ⟨_, rfl, .destroying hb hid⟩
  | destroyed hr =>
    cases hc with
    | destroying hb hid =>
      obtain rfl := origin hr hb
      exact ⟨_, rfl, .closing hb hid⟩
  | undestroyed hr f =>
    cases hc with
    | destroying hb hid =>
      obtain rfl := origin hr hb
      exact ⟨_, rfl, .undestroyed hb hid f⟩
  | closed hr =>
    cases hc with
    | closing hb hid =>
      obtain rfl := origin hr hb
      exact ⟨_, rfl, .closed hb hid⟩
  | forget id i =>
    cases hc with
    | forgetting hb hid => exact ⟨_, rfl, .removed hb hid⟩
  | told hcall result => rcases hcall with ⟨_, e⟩ | ⟨_, e⟩ | e <;> cases e

theorem Asking.after {id : String} {p : Point (.status id)} (h : Pace backend me s ⟨.status id, p⟩ ds q t)
    (hd : s.Placed) (hc : Asking s.origins id p es) :
    ∃ p', q = ⟨.status id, p'⟩ ∧ Asking s.origins id p' (es ++ entries ((p.record? me).or (p'.record? me)) ds) := by
  cases h with
  | enter hg => cases hc; exact ⟨_, rfl, .looking⟩
  | statusFound hi =>
    cases hc
    obtain ⟨b, hb, hid⟩ := hd _ _ hi
    exact ⟨_, rfl, .checking hb hid .arriving rfl⟩
  | statusMissing hi => cases hc; exact ⟨_, rfl, .missing⟩
  | arrive i => cases hc
  | @check id check next ds t hp =>
    cases hc with
    | @checking i b hb hid _ es h hn =>
      have hnext := Check.Course.after hp hb h
      have hrecord : (Point.checking check : Point (.status id)).record? me = some i := h.record?_eq hp
      refine ⟨_, rfl, ?_⟩
      rw [hrecord, Option.some_or, entries, entries, ← List.map_append, ← List.append_assoc]
      cases next with
      | settled status =>
        cases status with
        | none => exact .refused hb hid hnext
        | some status => exact .told hb hid hnext
      | _ =>
        rw [show (Point.ofCheck id _).ending = [] from rfl, List.append_nil]
        exact .checking hb hid hnext rfl
  | told hcall result => rcases hcall with ⟨_, e⟩ | ⟨_, e⟩ | e <;> cases e

theorem Telling.after {c : Call} {p : Point c} (hcall : (∃ id, c = .agent id) ∨ (∃ id, c = .address id) ∨ c = .ids)
    (h : Pace backend me s ⟨c, p⟩ ds q t) (hc : Telling c p es) :
    ∃ p', q = ⟨c, p'⟩ ∧ Telling c p' (es ++ entries ((p.record? me).or (p'.record? me)) ds) := by
  cases h with
  | enter hg => cases hc; exact ⟨_, rfl, .looking⟩
  | told hcall result => cases hc; exact ⟨_, rfl, .told result⟩
  | arrive i => cases hc
  | _ => rcases hcall with ⟨_, e⟩ | ⟨_, e⟩ | e <;> cases e

end

/-! ### One step of a list -/

theorem strandDeeds_append (k : Nat) (ns more : List Note) :
    strandDeeds k (ns ++ more) = strandDeeds k ns ++ strandDeeds k more := by
  simp [strandDeeds]

theorem strandDeeds_map (k now : Nat) (me : Strand) (i : Option Nat) (ds : List Deed) :
    strandDeeds k (ds.map fun d => ⟨now, me, i, d⟩) = if me.part = k then ds else [] := by
  by_cases hk : me.part = k
  · simp [strandDeeds, List.filter_map, hk, Function.comp_def]
  · simp [strandDeeds, List.filter_map, hk, Function.comp_def]

/-- The records that a list finds in the directory were made with distinct ids. -/
theorem Store.Placed.listed {s : Store} (hd : s.Placed) (filter : Sandbox.Filter) :
    ∃ ids : List String, ids.Nodup ∧
      (Point.listed s filter).map (fun i => (s.origins i).map (·.id)) = ids.map some := by
  have name {id : String} {i : Nat} (h : s.directory.find? id = some i) : (s.origins i).map (·.id) = some id := by
    obtain ⟨b, hb, rfl⟩ := hd id i h
    rw [hb]
    rfl
  unfold Point.listed
  cases filter.id with
  | none =>
    refine ⟨s.directory.keys, s.directory.nodup, ?_⟩
    simp only [Table.values, Table.keys, List.map_map]
    exact List.map_congr_left fun e he => name (Table.find?_of_mem he)
  | some id =>
    cases hi : s.directory.find? id with
    | none => exact ⟨[], List.nodup_nil, by simp [hi]⟩
    | some i => exact ⟨[id], by simp, by simp only [hi, Option.toList_some, List.map_singleton, name hi]⟩

theorem Rounds.start {s : Store} (hd : s.Placed) (filter : Sandbox.Filter) :
    Rounds s.origins (Point.listed s filter) ((Point.listed s filter).map .arriving) [] where
  distinct := hd.listed filter
  length_eq := List.length_map ..
  course := by
    intro k i check hi hc
    obtain ⟨ids, -, hids⟩ := hd.listed filter
    rw [List.getElem?_map, hi, Option.map_some, Option.some.injEq] at hc
    subst hc
    have := congrArg (·[k]?) hids
    simp only [List.getElem?_map, hi, Option.map_some] at this
    obtain ⟨id, -, hid⟩ := Option.map_eq_some_iff.mp this.symm
    obtain ⟨b, hb, -⟩ := Option.map_eq_some_iff.mp hid.symm
    exact ⟨b, hb, .arriving⟩
  record := fun n hn => nomatch hn

section
variable {me : Strand} {s t : Store} {ds : List Deed} {check next : Check} {targets : List Nat} {checks : List Check}
  {ns : List Note}

/-- A strand of a list stands at its record while it goes on. -/
theorem Rounds.target (h : Rounds s.origins targets checks ns) (hc : checks[me.part]? = some check)
    (hp : check.Pace me s ds next t) : ∃ i, targets[me.part]? = some i ∧ check.record? = some i := by
  have hk : me.part < targets.length := h.length_eq ▸ (List.getElem?_eq_some_iff.mp hc).1
  obtain ⟨b, -, hcourse⟩ := h.course (List.getElem?_eq_getElem hk) hc
  exact ⟨_, List.getElem?_eq_getElem hk, hcourse.record?_eq hp⟩

theorem Rounds.after (h : Rounds s.origins targets checks ns) (hc : checks[me.part]? = some check)
    (hp : check.Pace me s ds next t) {i : Nat} (hi : targets[me.part]? = some i) (now : Nat) :
    Rounds s.origins targets (checks.set me.part next) (ns ++ ds.map fun d => ⟨now, me, some i, d⟩) where
  distinct := h.distinct
  length_eq := (List.length_set ..).trans h.length_eq
  course := by
    intro k j check' hj hc'
    rw [strandDeeds_append, strandDeeds_map]
    by_cases hk : me.part = k
    · subst hk
      rw [hi] at hj
      cases hj
      rw [List.getElem?_set_self (List.getElem?_eq_some_iff.mp hc).1] at hc'
      cases hc'
      obtain ⟨b, hb, hcourse⟩ := h.course hi hc
      exact ⟨b, hb, by rw [if_pos rfl]; exact hcourse.after hp hb⟩
    · rw [List.getElem?_set_ne hk] at hc'
      obtain ⟨b, hb, hcourse⟩ := h.course hj hc'
      exact ⟨b, hb, by rw [if_neg hk, List.append_nil]; exact hcourse⟩
  record := by
    intro n hn
    rcases List.mem_append.mp hn with hn | hn
    · exact h.record n hn
    · obtain ⟨d, -, rfl⟩ := List.mem_map.mp hn
      exact ⟨i, hi, rfl⟩

theorem Listing.after {backend : String} {q : Running} {filter : Sandbox.Filter} {p : Point (.list filter)}
    (h : Pace backend me s ⟨.list filter, p⟩ ds q t) (hd : s.Placed) (hc : Listing s.origins filter p ns) :
    ∃ p', q = ⟨.list filter, p'⟩ ∧ Listing s.origins filter p'
      (ns ++ ds.map fun d => ⟨s.now, me, (p.record? me).or (p'.record? me), d⟩) := by
  cases h with
  | enter hg =>
    cases hc with
    | starting => exact ⟨_, rfl, .looking⟩
  | listed =>
    cases hc with
    | looking =>
      refine ⟨_, rfl, ?_⟩
      have hr := Rounds.start hd filter
      obtain ⟨reports, heq, h⟩ | ⟨-, h⟩ := Point.ofChecks_cases filter ((Point.listed s filter).map .arriving)
      · rw [h]
        exact .gathered (heq ▸ hr) (fun i hi => nomatch hi) rfl
      · rw [h]
        exact .gathering hr
  | @gather _ checks check next ds t hcheck hp =>
    cases hc with
    | gathering hr =>
      refine ⟨_, rfl, ?_⟩
      obtain ⟨i, hi, hrecord⟩ := hr.target hcheck hp
      have hrec : (Point.gathering checks : Point (.list filter)).record? me = some i := by
        simp [Point.record?, Point.check?, hcheck, hrecord]
      have hnext := hr.after hcheck hp hi s.now
      rw [hrec, Option.some_or, List.map_append, ← List.append_assoc]
      obtain ⟨reports, heq, h⟩ | ⟨-, h⟩ := Point.ofChecks_cases filter (checks.set me.part next)
      · rw [h]
        exact .gathered (heq ▸ hnext) (fun j hj => Option.some.inj hj ▸ List.mem_of_getElem? hi) rfl
      · rw [h, show (Point.gathering _ : Point (.list filter)).ending = [] from rfl, List.map_nil, List.append_nil]
        exact .gathering hnext
  | arrive i => cases hc
  | told hcall result => rcases hcall with ⟨_, e⟩ | ⟨_, e⟩ | e <;> cases e

end

theorem Course.after {backend : String} {me : Strand} {s t : Store} {p q : Running} {ds : List Deed} {ns : List Note}
    (h : Pace backend me s p ds q t) (hd : s.Placed) (hc : Course backend s.origins ns p) :
    Course backend t.origins
      (ns ++ ds.map fun d => ⟨s.now, me, (p.point.record? me).or (q.point.record? me), d⟩) q := by
  have hg := h.grows
  have map_entry (i : Option Nat) :
      (ns ++ ds.map (Note.mk s.now me i)).map Note.entry = ns.map Note.entry ++ entries i ds := by
    simp [entries, Note.entry]
  cases hc with
  | create hes hc =>
    subst hes
    obtain ⟨p', rfl, hc⟩ := (hc.mono hg).after h
    exact .create (map_entry _) hc
  | stop hes hc =>
    subst hes
    obtain ⟨p', rfl, hc⟩ := hc.after h hd
    exact .stop (map_entry _) (hc.mono hg)
  | remove hes hc =>
    subst hes
    obtain ⟨p', rfl, hc⟩ := (hc.mono hg).after h hd
    exact .remove (map_entry _) hc
  | status hes hc =>
    subst hes
    obtain ⟨p', rfl, hc⟩ := hc.after h hd
    exact .status (map_entry _) (hc.mono hg)
  | list hc =>
    obtain ⟨p', rfl, hc⟩ := hc.after h hd
    exact .list (hc.mono hg)
  | @agent id _ _ hes hc =>
    subst hes
    obtain ⟨p', rfl, hc⟩ := hc.after (.inl ⟨id, rfl⟩) h
    exact .agent (map_entry _) hc
  | @address id _ _ hes hc =>
    subst hes
    obtain ⟨p', rfl, hc⟩ := hc.after (.inr (.inl ⟨id, rfl⟩)) h
    exact .address (map_entry _) hc
  | ids hes hc =>
    subst hes
    obtain ⟨p', rfl, hc⟩ := hc.after (.inr (.inr rfl)) h
    exact .ids (map_entry _) hc

end PodMachines.Pods
