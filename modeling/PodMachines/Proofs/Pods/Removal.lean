import PodMachines.Proofs.Pods.Life
import PodMachines.Proofs.Pods.Own

/-! How a sandbox is removed. The strand whose destroy succeeds keeps the lock until the agent's connection is
    closed and the record marked, so that whoever has the lock afterwards finds the mark. -/

namespace PodMachines.Pods

def Deed.destroys : Deed → Bool
  | .hears (.backend (.destroy _)) (.ok ()) => true
  | _ => false

def Deed.closes : Deed → Bool
  | .asks (.close _) => true
  | _ => false

def Deed.closed : Deed → Bool
  | .hears (.close _) _ => true
  | _ => false

/-- Whether a call goes on with a record that is there: it asks for the end or the state of the machine, stops, or
    reports. -/
def Deed.accepts : Deed → Bool
  | .asks (.backend (.destroy _)) | .asks (.backend (.state _)) | .ends (.stop _) (.ok ()) | .reports (some _) => true
  | _ => false

/-- Whether a call finds no sandbox, or a check none to report. -/
def Deed.refuses : Deed → Bool
  | .ends (.stop _) (.error (.notFound ..)) | .ends (.remove _) (.error (.notFound ..)) | .reports none => true
  | _ => false

/-- In which order things come at a record. -/
structure Ordered (pre : List Note) (e : Note) : Prop where
  closes : e.deed.closes = true → pre.countP (·.deed.destroys) = 1
  accepts : e.deed.accepts = true → pre.countP (·.deed.destroys) = 0
  refuses : e.deed.refuses = true → pre.countP (·.deed.closed) = 1

/-- How many destroys succeeded at a record, by who works there: the mark comes only when the connection is closed. -/
def doomed (r : Record) : Option (Nat × Work) → Nat
  | some (_, .closing) => 1
  | _ => r.removed.toNat

/-- What a record and its lock keep of its chronicle. -/
structure Guarded (ns : List Note) (r : Record) (w : Option (Nat × Work)) : Prop where
  destroys : ns.countP (·.deed.destroys) = doomed r w
  closes : ns.countP (·.deed.closes) = doomed r w
  closed : ns.countP (·.deed.closed) = r.removed.toNat
  working : r.removed = true → w = none
  ordered : Throughout Ordered ns

/-- Whether nothing is noted of the removal. -/
def Deed.Plain (d : Deed) : Prop :=
  d.destroys = false ∧ d.closes = false ∧ d.closed = false ∧ d.accepts = false ∧ d.refuses = false

theorem Deed.EndsCheck.plain {d : Deed} (h : d.EndsCheck) : d.Plain := by
  obtain ⟨id, result, rfl⟩ | ⟨filter, result, rfl⟩ := h <;> exact ⟨rfl, rfl, rfl, rfl, rfl⟩

theorem Passing.plain {ds : List Deed} (h : Passing ds) : ∀ d ∈ ds, d.Plain := by
  cases h <;> exact List.forall_mem_singleton.mpr ⟨rfl, rfl, rfl, rfl, rfl⟩

theorem countP_append_of_none {p : Deed → Bool} {ns more : List Note} (h : ∀ e ∈ more, p e.deed = false) :
    (ns ++ more).countP (fun e => p e.deed) = ns.countP fun e => p e.deed := by
  have hz : more.countP (fun e => p e.deed) = 0 := List.countP_eq_zero.mpr fun e he => by simp [h e he]
  rw [List.countP_append, hz, Nat.add_zero]

namespace Guarded
variable {ns : List Note} {r r' : Record} {w w' : Option (Nat × Work)}

theorem congr (h : Guarded ns r w) (hr : r'.removed = r.removed) (hw : doomed r' w' = doomed r w)
    (hwork : r'.removed = true → w' = none) : Guarded ns r' w' where
  destroys := hw ▸ h.destroys
  closes := hw ▸ h.closes
  closed := hr ▸ h.closed
  working := hwork
  ordered := h.ordered

/-- What is noted without a success of the removal leaves the counts. -/
theorem append (h : Guarded ns r w) {more : List Note}
    (hd : ∀ e ∈ more, e.deed.destroys = false ∧ e.deed.closes = false ∧ e.deed.closed = false)
    (ho : Throughout (fun pre => Ordered (ns ++ pre)) more) : Guarded (ns ++ more) r w where
  destroys := (countP_append_of_none fun e he => (hd e he).1).trans h.destroys
  closes := (countP_append_of_none fun e he => (hd e he).2.1).trans h.closes
  closed := (countP_append_of_none fun e he => (hd e he).2.2).trans h.closed
  working := h.working
  ordered := throughout_append.mpr ⟨h.ordered, ho⟩

theorem unmarked {x : Nat × Work} (h : Guarded ns r (some x)) : r.removed = false := by
  cases hr : r.removed with
  | false => rfl
  | true => cases h.working hr

variable (now : Nat) (me : Strand) (i : Option Nat)

theorem plain (h : Guarded ns r w) {ds : List Deed} (hd : ∀ d ∈ ds, d.Plain) :
    Guarded (ns ++ ds.map fun d => ⟨now, me, i, d⟩) r w := by
  refine h.append ?_ (throughout_of_forall ?_)
  · intro e he
    obtain ⟨d, hmem, rfl⟩ := List.mem_map.mp he
    obtain ⟨h₁, h₂, h₃, -, -⟩ := hd d hmem
    exact ⟨h₁, h₂, h₃⟩
  · intro e he pre
    obtain ⟨d, hmem, rfl⟩ := List.mem_map.mp he
    obtain ⟨-, h₂, -, h₄, h₅⟩ := hd d hmem
    exact ⟨fun hc => (nomatch h₂.symm.trans hc), fun hc => (nomatch h₄.symm.trans hc),
      fun hc => (nomatch h₅.symm.trans hc)⟩

theorem plain_singleton (h : Guarded ns r w) {d : Deed} (hd : d.Plain) : Guarded (ns ++ [⟨now, me, i, d⟩]) r w :=
  h.plain now me i (List.forall_mem_singleton.mpr hd)

theorem accept (h : Guarded ns r w) (hz : doomed r w = 0) {d : Deed} (hd : d.accepts = true) :
    Guarded (ns ++ [⟨now, me, i, d⟩]) r w := by
  have hother : d.destroys = false ∧ d.closes = false ∧ d.closed = false ∧ d.refuses = false := by
    unfold Deed.accepts at hd
    split at hd <;> first | exact ⟨rfl, rfl, rfl, rfl⟩ | cases hd
  refine h.append (List.forall_mem_singleton.mpr ⟨hother.1, hother.2.1, hother.2.2.1⟩)
    (throughout_cons.mpr ⟨⟨fun hc => ?_, fun _ => ?_, fun hc => ?_⟩, throughout_nil⟩)
  · cases hother.2.1.symm.trans hc
  · rw [List.append_nil, h.destroys, hz]
  · cases hother.2.2.2.symm.trans hc

theorem refuse (h : Guarded ns r w) (hr : r.removed = true) {d : Deed} (hd : d.refuses = true) :
    Guarded (ns ++ [⟨now, me, i, d⟩]) r w := by
  have hother : d.destroys = false ∧ d.closes = false ∧ d.closed = false ∧ d.accepts = false := by
    unfold Deed.refuses at hd
    split at hd <;> first | exact ⟨rfl, rfl, rfl, rfl⟩ | cases hd
  refine h.append (List.forall_mem_singleton.mpr ⟨hother.1, hother.2.1, hother.2.2.1⟩)
    (throughout_cons.mpr ⟨⟨fun hc => ?_, fun hc => ?_, fun _ => ?_⟩, throughout_nil⟩)
  · cases hother.2.1.symm.trans hc
  · cases hother.2.2.2.symm.trans hc
  · rw [List.append_nil, h.closed, hr]
    rfl

/-- When a destroy succeeds, the connection is asked to close. -/
theorem destroy {n : Nat} (h : Guarded ns r (some (n, .destroying))) (machine : Machine.Handle) (agent : Connection) :
    Guarded (ns ++ [⟨now, me, i, .hears (.backend (.destroy machine)) (.ok ())⟩, ⟨now, me, i, .asks (.close agent)⟩]) r
      (some (n, .closing)) := by
  have hr := h.unmarked
  have hz : doomed r (some (n, .destroying)) = 0 := congrArg Bool.toNat hr
  constructor
  · rw [List.countP_append, h.destroys, hz]
    rfl
  · rw [List.countP_append, h.closes, hz]
    rfl
  · rw [List.countP_append, h.closed]
    rfl
  · intro hremoved
    cases hr.symm.trans hremoved
  · refine throughout_append.mpr ⟨h.ordered, throughout_cons.mpr ⟨?_, throughout_cons.mpr ⟨?_, throughout_nil⟩⟩⟩
    · exact ⟨fun hc => (nomatch hc), fun hc => (nomatch hc), fun hc => (nomatch hc)⟩
    · refine ⟨fun _ => ?_, fun hc => (nomatch hc), fun hc => (nomatch hc)⟩
      rw [List.countP_append, h.destroys, hz]
      rfl

theorem close {n : Nat} (h : Guarded ns r (some (n, .closing))) (agent : Connection) (hr : r'.removed = true) :
    Guarded (ns ++ [⟨now, me, i, .hears (.close agent) ()⟩]) r' none := by
  have hold := h.unmarked
  have hone : doomed r' none = 1 := congrArg Bool.toNat hr
  constructor
  · rw [List.countP_append, h.destroys, hone]
    rfl
  · rw [List.countP_append, h.closes, hone]
    rfl
  · rw [List.countP_append, h.closed, hold, hr]
    rfl
  · exact fun _ => rfl
  · refine throughout_append.mpr ⟨h.ordered, throughout_cons.mpr ⟨?_, throughout_nil⟩⟩
    exact ⟨fun hc => (nomatch hc), fun hc => (nomatch hc), fun hc => (nomatch hc)⟩

end Guarded

theorem Refusal.refuses {ds : List Deed} (h : Refusal ds) :
    ∃ d rest, ds = d :: rest ∧ d.refuses = true ∧ ∀ e ∈ rest, e.Plain := by
  cases h with
  | stop id => exact ⟨_, [], rfl, rfl, fun e he => nomatch he⟩
  | remove id => exact ⟨_, [], rfl, rfl, fun e he => nomatch he⟩
  | check hrest => exact ⟨_, _, rfl, rfl, fun e he => (hrest e he).plain⟩

theorem Record.downgraded_removed (r : Record) : r.downgraded.removed = r.removed := by
  unfold downgraded
  split <;> rfl

/-- A record and its lock keep of the removal what happened to it, all its life. -/
theorem Life.guarded {i now : Nat} {ns : List Note} {r : Record} {w : Option (Nat × Work)} (h : Life i now ns r w) :
    Guarded ns r w := by
  induction h with
  | born me now spec machine address agent =>
    refine ⟨rfl, rfl, rfl, fun _ => rfl, throughout_cons.mpr ⟨?_, throughout_nil⟩⟩
    exact ⟨fun hc => (nomatch hc), fun hc => (nomatch hc), fun hc => (nomatch hc)⟩
  | later h hn ih => exact ih
  | @request now ns r w h me ih =>
    refine ih.congr rfl ?_ ih.working
    unfold doomed
    split <;> rfl
  | pass h me hd ih => exact ih.plain _ me (some i) hd.plain
  | @turn now ns r r' me w w' ds h ht ih =>
    have locks := ih.plain_singleton now me (some i) (d := .locks) ⟨rfl, rfl, rfl, rfl, rfl⟩
    cases ht with
    | refuse hl hd hrest =>
      obtain ⟨d, rest, rfl, hrefuses, hplain⟩ := hrest.refuses
      rw [List.map_cons, List.append_cons, List.map_cons, List.append_cons]
      exact ((locks.refuse now me (some i) hd hrefuses).plain now me (some i) hplain).congr rfl rfl fun _ => rfl
    | stop hl hd id =>
      rw [List.map_cons, List.append_cons]
      exact (locks.accept now me (some i) (congrArg Bool.toNat hd) rfl).congr rfl rfl fun _ => rfl
    | destroy hl hd =>
      rw [List.map_cons, List.append_cons]
      refine (locks.accept now me (some i) (congrArg Bool.toNat hd) rfl).congr rfl rfl fun hr => ?_
      cases hd.symm.trans hr
    | destroyed => exact ih.destroy now me (some i) r.machine r.agent
    | undestroyed id f =>
      refine (ih.plain now me (some i) ?_).congr rfl rfl fun _ => rfl
      cases f <;> simp [Deed.Plain, Deed.destroys, Deed.closes, Deed.closed, Deed.accepts, Deed.refuses, Failure.asDestroy]
    | close => exact ih.close now me (some i) r.agent rfl
    | fresh hl hd hf hrest =>
      rw [List.map_cons, List.append_cons, List.map_cons, List.append_cons]
      have told := locks.accept now me (some i) (congrArg Bool.toNat hd) (d := .reports (some r.downgraded.snapshot)) rfl
      exact (told.plain now me (some i) fun d hd => (hrest d hd).plain).congr r.downgraded_removed
        (congrArg Bool.toNat r.downgraded_removed) fun _ => rfl
    | query hl hd hf =>
      rw [List.map_cons, List.append_cons]
      refine (locks.accept now me (some i) (congrArg Bool.toNat hd) rfl).congr rfl rfl fun hr => ?_
      cases hd.symm.trans hr
    | sample x hrest =>
      rw [List.map_cons, List.append_cons, List.map_cons, List.append_cons]
      have hr : (r.sampled x now).downgraded.removed = r.removed := Record.downgraded_removed _
      have heard := ih.plain_singleton now me (some i) (d := .hears (.backend (.state r.machine)) (.ok x))
        ⟨rfl, rfl, rfl, rfl, rfl⟩
      have told := heard.accept now me (some i) (congrArg Bool.toNat ih.unmarked)
        (d := .reports (some (r.sampled x now).downgraded.snapshot)) rfl
      exact (told.plain now me (some i) fun d hd => (hrest d hd).plain).congr hr (congrArg Bool.toNat hr) fun _ => rfl
    | fail f hrest =>
      rw [List.map_cons, List.append_cons, List.map_cons, List.append_cons]
      have heard := ih.plain_singleton now me (some i) (d := .hears (.backend (.state r.machine)) (.error f))
        ⟨rfl, rfl, rfl, rfl, rfl⟩
      have told := heard.accept now me (some i) (congrArg Bool.toNat ih.unmarked)
        (d := .reports (some r.downgraded.snapshot)) rfl
      exact (told.plain now me (some i) fun d hd => (hrest d hd).plain).congr r.downgraded_removed
        (congrArg Bool.toNat r.downgraded_removed) fun _ => rfl

/-- The strand that gets a lock goes on with the record at once, or is refused at once. -/
def Followed (ns : List Note) : Prop :=
  ∀ pre e post, ns = pre ++ e :: post → e.deed = .locks → ∃ next rest, post = next :: rest ∧
    next.strand = e.strand ∧ (next.deed.accepts = true ∨ next.deed.refuses = true)

theorem Followed.append {ns more : List Note} (h : Followed ns) (hm : Followed more) : Followed (ns ++ more) := by
  intro pre e post hs hd
  obtain ⟨mid, rfl, hmore⟩ | ⟨mid, hns, htail⟩ := List.append_eq_append_iff.mp hs
  · exact hm mid e post hmore hd
  · cases mid with
    | nil => exact hm [] e post htail.symm hd
    | cons x mid =>
      obtain ⟨rfl, rfl⟩ := List.cons.inj htail
      obtain ⟨next, rest, hpost, hnext⟩ := h pre e mid hns hd
      exact ⟨next, rest ++ more, by rw [hpost]; rfl, hnext⟩

theorem followed_of_none {ns : List Note} (h : ∀ e ∈ ns, e.deed ≠ .locks) : Followed ns := by
  rintro pre e post rfl hd
  exact absurd hd (h e (List.mem_append_right _ (List.mem_cons_self ..)))

theorem followed_of_locks (now : Nat) (me : Strand) (i : Option Nat) {d : Deed} {rest : List Deed}
    (hd : d.accepts = true ∨ d.refuses = true) (hrest : ∀ e ∈ rest, e ≠ .locks) :
    Followed ((.locks :: d :: rest).map fun d => ⟨now, me, i, d⟩) := by
  intro pre e post hs he
  cases pre with
  | nil =>
    obtain ⟨rfl, rfl⟩ := List.cons.inj hs
    exact ⟨_, _, rfl, rfl, hd⟩
  | cons x pre =>
    have hmem : e ∈ (d :: rest).map fun d => (⟨now, me, i, d⟩ : Note) :=
      (List.cons.inj hs).2 ▸ List.mem_append_right _ (List.mem_cons_self ..)
    obtain ⟨d', hd', rfl⟩ := List.mem_map.mp hmem
    obtain rfl : d' = .locks := he
    obtain rfl | hd' := List.mem_cons.mp hd'
    · rcases hd with hd | hd <;> cases hd
    · exact absurd rfl (hrest _ hd')

theorem Turn.followed {me : Strand} {now : Nat} {r r' : Record} {w w' : Option Work} {ds : List Deed}
    (h : Turn me now r w ds r' w') (i : Option Nat) : Followed (ds.map fun d => ⟨now, me, i, d⟩) := by
  have ends {rest : List Deed} (hrest : ∀ d ∈ rest, d.EndsCheck) : ∀ d ∈ rest, d ≠ .locks := by
    rintro d hd rfl
    obtain ⟨id, result, hd⟩ | ⟨filter, result, hd⟩ := hrest _ hd <;> cases hd
  have heard {a b : Deed} {rest : List Deed} (ha : a ≠ .locks) (hb : b ≠ .locks) (hrest : ∀ d ∈ rest, d.EndsCheck) :
      Followed ((a :: b :: rest).map fun d => ⟨now, me, i, d⟩) := by
    refine followed_of_none fun e he => ?_
    obtain ⟨d, hd, rfl⟩ := List.mem_map.mp he
    obtain rfl | hd := List.mem_cons.mp hd
    · exact ha
    · obtain rfl | hd := List.mem_cons.mp hd
      · exact hb
      · exact ends hrest d hd
  cases h with
  | refuse hl hd hrest =>
    cases hrest with
    | stop id => exact followed_of_locks now me i (.inr rfl) fun e he => nomatch he
    | remove id => exact followed_of_locks now me i (.inr rfl) fun e he => nomatch he
    | check hrest => exact followed_of_locks now me i (.inr rfl) (ends hrest)
  | stop hl hd id => exact followed_of_locks now me i (.inl rfl) fun e he => nomatch he
  | destroy hl hd => exact followed_of_locks now me i (.inl rfl) fun e he => nomatch he
  | query hl hd hf => exact followed_of_locks now me i (.inl rfl) fun e he => nomatch he
  | fresh hl hd hf hrest => exact followed_of_locks now me i (.inl rfl) (ends hrest)
  | sample x hrest => exact heard Deed.noConfusion Deed.noConfusion hrest
  | fail f hrest => exact heard Deed.noConfusion Deed.noConfusion hrest
  | _ => exact followed_of_none (by simp)

theorem Life.followed {i now : Nat} {ns : List Note} {r : Record} {w : Option (Nat × Work)} (h : Life i now ns r w) :
    Followed ns := by
  induction h with
  | born me now spec machine address agent => exact followed_of_none (by simp)
  | later h hn ih => exact ih
  | request h me ih => exact ih
  | pass h me hd ih =>
    refine ih.append (followed_of_none ?_)
    cases hd <;> simp
  | turn h ht ih => exact ih.append (ht.followed _)

/-! ### Refused calls -/

section
variable {o : Origins} {es : List Entry} {e : Entry} {i : Nat}

theorem Call.of_refuses {c : Call} {d : Deed} (h : c.may d = true) (hd : d.refuses = true) :
    (∃ id, c = .stop id) ∨ (∃ id, c = .remove id) ∨ (∃ id, c = .status id) ∨ ∃ filter, c = .list filter := by
  unfold Deed.refuses at hd
  split at hd
  · obtain rfl := of_decide_eq_true h
    exact .inl ⟨_, rfl⟩
  · obtain rfl := of_decide_eq_true h
    exact .inr (.inl ⟨_, rfl⟩)
  · exact .inr (.inr (Call.of_checks h rfl))
  · cases hd

theorem Stopping.missing_of_refuses {id : String} {p : Point (.stop id)} (h : Stopping o id p es) (he : e ∈ es)
    (hi : e.1 = some i) (hd : e.2.refuses = true) : p = .finished (Point.missing id) ∧ o.Names i id := by
  cases h with
  | missing => cases (mem_entries.mp he).1.symm.trans hi
  | refused ho =>
    cases (mem_entries.mp he).1.symm.trans hi
    exact ⟨rfl, ho⟩
  | stopped ho =>
    obtain heq | hmem := List.mem_cons.mp (mem_entries.mp he).2
    · rw [heq] at hd
      cases hd
    · rw [List.mem_singleton.mp hmem] at hd
      cases hd
  | _ => cases he

theorem Removing.missing_of_refuses {id : String} {p : Point (.remove id)} (h : Removing o id p es) (he : e ∈ es)
    (hi : e.1 = some i) (hd : e.2.refuses = true) : p = .finished (Point.missing id) ∧ o.Names i id := by
  have none {α : Prop} (hz : es.countP (fun e => e.2.refuses) = 0) : α :=
    absurd hd (List.countP_eq_zero.mp hz e he)
  cases h with
  | missing => cases (mem_entries.mp he).1.symm.trans hi
  | refused ho =>
    cases (mem_entries.mp he).1.symm.trans hi
    exact ⟨rfl, ho⟩
  | undestroyed hb hid f => exact none (by cases f <;> rfl)
  | _ => exact none rfl

theorem Check.Course.settled_of_refuses {b : Origin} {check : Check} {ds : List Deed} (h : check.Course b i ds)
    {d : Deed} (hmem : d ∈ ds) (hd : d.refuses = true) : check = .settled none := by
  have none {α : Prop} (hz : ds.countP Deed.refuses = 0) : α := absurd hd (List.countP_eq_zero.mp hz d hmem)
  cases h with
  | refused => rfl
  | _ => exact none rfl

theorem Asking.missing_of_refuses {id : String} {p : Point (.status id)} (h : Asking o id p es) (he : e ∈ es)
    (hi : e.1 = some i) (hd : e.2.refuses = true) : p = .finished (Point.missing id) ∧ o.Names i id := by
  cases h with
  | missing => cases (mem_entries.mp he).1.symm.trans hi
  | checking hb hid h hn =>
    obtain rfl := h.settled_of_refuses (mem_entries.mp he).2 hd
    cases hn
  | refused hb hid h =>
    cases (mem_entries.mp he).1.symm.trans hi
    exact ⟨rfl, _, hb, hid⟩
  | told hb hid h =>
    rcases List.mem_append.mp (mem_entries.mp he).2 with hmem | hmem
    · cases h.settled_of_refuses hmem hd
    · rw [List.mem_singleton.mp hmem] at hd
      cases hd
  | _ => cases he

theorem Rounds.drops {targets : List Nat} {reports : List (Option Sandbox.Status)} {ns : List Note}
    (h : Rounds o targets (reports.map .settled) ns) {n : Note} (hn : n ∈ ns) (hi : n.record = some i)
    (hd : n.deed.refuses = true) {b : Origin} (hb : o i = some b) {status : Sandbox.Status}
    (hs : some status ∈ reports) : status.id ≠ b.id := by
  intro hid
  obtain ⟨j, hj, hr⟩ := h.record n hn
  cases hr.symm.trans hi
  obtain ⟨k, hk⟩ := List.mem_iff_getElem?.mp hs
  have settled {m : Nat} {report : Option Sandbox.Status} (hm : reports[m]? = some report) :
      (reports.map Check.settled)[m]? = some (.settled report) := by
    rw [List.getElem?_map, hm]
    rfl
  -- The check that told the status is of the same id, and so the check that was refused.
  have hlt : k < targets.length := h.length_eq ▸ (List.getElem?_eq_some_iff.mp (settled hk)).1
  obtain ⟨b', hb', hcourse⟩ := h.course (List.getElem?_eq_getElem hlt) (settled hk)
  have hsame : n.strand.part = k := by
    refine (List.getElem?_inj ?_ h.nodup_ids).mp ?_
    · rw [List.length_map]
      exact (List.getElem?_eq_some_iff.mp hj).1
    · rw [List.getElem?_map, List.getElem?_map, hj, List.getElem?_eq_getElem hlt, Option.map_some, Option.map_some,
        hb, hb', Option.map_some, Option.map_some, ← hid, hcourse.id_eq]
  cases hcourse.settled_of_refuses (mem_strandDeeds.mpr ⟨n, hn, hsame, rfl⟩) hd

theorem Listing.drops {filter : Sandbox.Filter} {p : Point (.list filter)} {ns : List Note}
    (h : Listing o filter p ns) {n : Note} (hn : n ∈ ns) (hi : n.record = some i) (hd : n.deed.refuses = true)
    {b : Origin} (hb : o i = some b) {statuses : List Sandbox.Status} (hp : p = .finished statuses) :
    ∀ status ∈ statuses, status.id ≠ b.id := by
  subst hp
  intro status hs
  cases h with
  | gathered h hrecord hend =>
    obtain ⟨report, hreport, rfl⟩ := List.mem_filterMap.mp (List.mem_filter.mp hs).1
    rcases List.mem_append.mp hn with hn | hn
    · exact h.drops hn hi hd hb hreport
    · obtain rfl := List.mem_singleton.mp hn
      rw [hend] at hd
      cases hd

end

/-! ### The calls -/

section
variable {backend : String} {catalog : Option String} {now : Nat} {log : List Note} {s : System}

theorem Deed.removes_iff {d : Deed} : d.removes = true ↔ ∃ id, d = .ends (.remove id) (.ok ()) := by
  constructor
  · intro h
    unfold removes at h
    split at h
    · exact ⟨_, rfl⟩
    · cases h
  · rintro ⟨id, rfl⟩
    rfl

theorem Run.closed_of_removes (h : Run (.new backend catalog now) log s) {i : Nat} {n : Note}
    (hn : n ∈ chronicle i log) (hd : n.deed.removes = true) :
    ∃ e ∈ chronicle i log, e.strand.call = n.strand.call ∧ e.deed.closed = true := by
  obtain ⟨hn, hi⟩ := mem_chronicle.mp hn
  obtain ⟨id, hd⟩ := Deed.removes_iff.mp hd
  have hp := System.result?_eq_some.mp (h.result_iff.mpr ⟨n, hn, rfl, hd⟩)
  cases h.orderly.course hp with
  | remove hes hc =>
    cases hc with
    | @removed j b hb hid =>
      have hmem : n.entry ∈ entries (some j) _ := hes ▸ List.mem_map_of_mem (mem_account.mpr ⟨hn, rfl⟩)
      have hj := (mem_entries.mp hmem).1
      obtain ⟨e, he, hrec, hclose⟩ := mem_of_map_entry hes (d := .hears (.close b.agent) ()) (by simp)
      obtain ⟨he, hcall⟩ := mem_account.mp he
      exact ⟨e, mem_chronicle.mpr ⟨he, hrec.trans (hj.symm.trans hi)⟩, hcall, hclose ▸ rfl⟩

theorem eq_of_countP_le_one {α : Type} {p : α → Bool} {l : List α} (h : l.countP p ≤ 1) {x y : α} (hx : x ∈ l)
    (hy : y ∈ l) (hpx : p x = true) (hpy : p y = true) : x = y := by
  rw [List.countP_eq_length_filter] at h
  have hx' := List.mem_filter.mpr ⟨hx, hpx⟩
  have hy' := List.mem_filter.mpr ⟨hy, hpy⟩
  cases hl : l.filter p with
  | nil =>
    rw [hl] at hx'
    cases hx'
  | cons a rest =>
    rw [hl] at h hx' hy'
    obtain rfl : rest = [] := List.eq_nil_of_length_eq_zero (by simp only [List.length_cons] at h; omega)
    rw [List.mem_singleton.mp hx', List.mem_singleton.mp hy']

theorem Run.removes_le (h : Run (.new backend catalog now) log s) {i : Nat} {r : Record}
    (hr : s.store.records[i]? = some r) : (chronicle i log).countP (·.deed.removes) ≤ 1 := by
  obtain ⟨w, -, hlife⟩ := h.life hr
  have hclosed : (chronicle i log).countP (·.deed.closed) ≤ 1 := hlife.guarded.closed ▸ Bool.toNat_le _
  by_cases hex : ∃ n ∈ chronicle i log, n.deed.removes = true
  · obtain ⟨n, hn, hd⟩ := hex
    obtain ⟨e, he, hcall, hclose⟩ := h.closed_of_removes hn hd
    -- All removes that succeed are the call that closed the connection, and a call ends once.
    have hsame : ∀ n' ∈ chronicle i log, n'.deed.removes = true → n'.strand.call = n.strand.call := by
      intro n' hn' hd'
      obtain ⟨e', he', hcall', hclose'⟩ := h.closed_of_removes hn' hd'
      rw [← hcall', ← hcall, eq_of_countP_le_one hclosed he he' hclose hclose']
    obtain ⟨p, hp, -, -⟩ := h.course_of_mem (mem_chronicle.mp hn).1
    have hend := congrArg List.length (h.ending hp)
    rw [← List.countP_eq_length_filter, List.countP_map] at hend
    calc (chronicle i log).countP (·.deed.removes)
        ≤ (account n.strand.call log).countP (Deed.isEnd ∘ (·.deed)) := by
          rw [chronicle, account, List.countP_filter, List.countP_filter]
          refine List.countP_mono_left fun n' hn' hd' => ?_
          simp only [Bool.and_eq_true, decide_eq_true_eq, Function.comp_apply] at hd' ⊢
          refine ⟨?_, hsame n' (mem_chronicle.mpr ⟨hn', hd'.2⟩) hd'.1⟩
          obtain ⟨id, hid⟩ := Deed.removes_iff.mp hd'.1
          rw [hid]
          rfl
      _ = p.point.ending.length := hend
      _ ≤ 1 := by cases p.point <;> simp [Point.ending]
  · have hz : (chronicle i log).countP (·.deed.removes) = 0 :=
      List.countP_eq_zero.mpr fun e he hd => hex ⟨e, he, hd⟩
    rw [hz]
    exact Nat.zero_le 1

theorem Call.of_closed {c : Call} {d : Deed} (h : c.may d = true) (hd : d.closed = true) : ∃ id, c = .remove id := by
  unfold Deed.closed at hd
  split at hd
  · cases c with
    | remove id => exact ⟨id, rfl⟩
    | _ => cases h
  · cases hd

theorem Removing.removes_of_closed {o : Origins} {id : String} {p : Point (.remove id)} {es : List Entry}
    (h : Removing o id p es) {result : (Call.remove id).Result} (hp : p = .finished result) {e : Entry} (he : e ∈ es)
    (hd : e.2.closed = true) : (e.1, .ends (.remove id) (.ok ())) ∈ es := by
  subst hp
  obtain ⟨i, d⟩ := e
  cases h with
  | missing =>
    obtain rfl : d = _ := List.mem_singleton.mp (mem_entries.mp he).2
    cases hd
  | refused ho =>
    obtain rfl | hmem := List.mem_cons.mp (mem_entries.mp he).2
    · cases hd
    · obtain rfl : d = _ := List.mem_singleton.mp hmem
      cases hd
  | undestroyed hb hid f =>
    have hmem : d ∈ _ := (mem_entries.mp he).2
    simp only [List.mem_cons, List.not_mem_nil, or_false] at hmem
    obtain rfl | rfl | rfl | rfl := hmem <;> cases hd
  | removed hb hid => exact mem_entries.mpr ⟨(mem_entries.mp he).1, by simp⟩

theorem Run.removes_of_closed (h : Run (.new backend catalog now) log s) (hidle : s.Idle) {i : Nat} {n : Note}
    (hn : n ∈ chronicle i log) (hd : n.deed.closed = true) : ∃ e ∈ chronicle i log, e.deed.removes = true := by
  obtain ⟨hn, hi⟩ := mem_chronicle.mp hn
  obtain ⟨p, hp, hc, hmem⟩ := h.course_of_mem hn
  obtain ⟨id, hcall⟩ := Call.of_closed (h.may hp n hmem) hd
  obtain ⟨result, hres⟩ := hidle p (List.mem_of_getElem? hp)
  cases hc with
  | remove hes hc =>
    have hends := hc.removes_of_closed hres (hes ▸ List.mem_map_of_mem hmem) hd
    obtain ⟨e, he, heq⟩ := List.mem_map.mp (hes ▸ hends)
    obtain ⟨hrec, hdeed⟩ := Prod.mk.inj heq
    exact ⟨e, mem_chronicle.mpr ⟨(mem_account.mp he).1, hrec.trans hi⟩, hdeed ▸ rfl⟩
  | _ => cases hcall

/-- When every call is over, the connection was closed once if a remove succeeded, and else never. -/
theorem Run.closed_eq_removes (h : Run (.new backend catalog now) log s) (hidle : s.Idle) {i : Nat} {r : Record}
    (hr : s.store.records[i]? = some r) :
    (chronicle i log).countP (·.deed.closed) = (chronicle i log).countP (·.deed.removes) := by
  obtain ⟨w, -, hlife⟩ := h.life hr
  have hclosed : (chronicle i log).countP (·.deed.closed) ≤ 1 := hlife.guarded.closed ▸ Bool.toNat_le _
  have hremoves := h.removes_le hr
  have hiff : 0 < (chronicle i log).countP (·.deed.closed) ↔ 0 < (chronicle i log).countP (·.deed.removes) := by
    rw [List.countP_pos_iff, List.countP_pos_iff]
    constructor
    · rintro ⟨n, hn, hd⟩
      exact h.removes_of_closed hidle hn hd
    · rintro ⟨n, hn, hd⟩
      obtain ⟨e, he, -, hclose⟩ := h.closed_of_removes hn hd
      exact ⟨e, he, hclose⟩
  omega

/-- A destroy that fails can always be told to its strand, which then lets the record go as it was. -/
theorem Run.undestroyed (h : Run (.new backend catalog now) log s) {me : Strand} {i : Nat} {r : Record}
    (hr : s.store.records[i]? = some r) (hw : s.work? me = some (i, .destroying)) (f : Failure) :
    ∃ t, s.answer me (.backend (.destroy r.machine)) (.error f) = some t ∧
      t.result? me.call (.remove r.id) = some (.error (f.asDestroy r.id)) ∧ t.store = s.store.put i r.released := by
  obtain ⟨p, hp, hs⟩ := h.standing hw
  have hc := h.orderly.course hp
  cases hs with
  | destroying id =>
    obtain rfl : r.id = id := by
      cases hc with
      | remove hes hc =>
        cases hc with
        | destroying hb hid =>
          cases hb.symm.trans (Store.origins_eq hr)
          exact hid
    have hq : (Point.destroying i : Point (.remove r.id)).request? me s.store =
        some (.backend (.destroy r.machine)) := by
      simp only [Point.request?, hr, Option.map_some]
    have ha : (Point.destroying i : Point (.remove r.id)).answer s.backend me s.store
        (.backend (.destroy r.machine)) (.error f) =
          some (.finished (.error (f.asDestroy r.id)), s.store.put i r.released) := by
      simp only [Point.answer, Store.modify_eq_put hr]
    refine ⟨_, System.answer_eq_some hp hq ha, System.result?_eq_some.mpr ?_, rfl⟩
    exact List.getElem?_set_self (List.getElem?_eq_some_iff.mp hp).1

/-- A call finds no sandbox with the id: it says so, or drops it if it is a list. -/
def System.Misses (s : System) (call : Nat) (id : String) : Prop :=
  s.result? call (.stop id) = some (Point.missing id) ∨ s.result? call (.remove id) = some (Point.missing id) ∨
    s.result? call (.status id) = some (Point.missing id) ∨
      ∃ filter point, s.calls[call]? = some ⟨.list filter, point⟩ ∧
        ∀ statuses, s.result? call (.list filter) = some statuses → ∀ status ∈ statuses, status.id ≠ id

theorem Run.misses (h : Run (.new backend catalog now) log s) {i : Nat} {r : Record}
    (hr : s.store.records[i]? = some r) {n : Note} (hn : n ∈ chronicle i log) (hd : n.deed.refuses = true) :
    s.Misses n.strand.call r.id := by
  obtain ⟨hn, hi⟩ := mem_chronicle.mp hn
  obtain ⟨p, hp, hc, hmem⟩ := h.course_of_mem hn
  have he : n.entry ∈ (account n.strand.call log).map Note.entry := List.mem_map_of_mem hmem
  have name {id : String} (hid : s.store.origins.Names i id) : id = r.id := by
    obtain ⟨b, hb, hid⟩ := hid
    cases hb.symm.trans (Store.origins_eq hr)
    exact hid.symm
  obtain ⟨id, hcall⟩ | ⟨id, hcall⟩ | ⟨id, hcall⟩ | ⟨filter, hcall⟩ := Call.of_refuses (h.may hp n hmem) hd
  · cases hc with
    | stop hes hc =>
      obtain ⟨rfl, hid⟩ := hc.missing_of_refuses (hes ▸ he) hi hd
      obtain rfl := name hid
      exact .inl (System.result?_eq_some.mpr hp)
    | _ => cases hcall
  · cases hc with
    | remove hes hc =>
      obtain ⟨rfl, hid⟩ := hc.missing_of_refuses (hes ▸ he) hi hd
      obtain rfl := name hid
      exact .inr (.inl (System.result?_eq_some.mpr hp))
    | _ => cases hcall
  · cases hc with
    | status hes hc =>
      obtain ⟨rfl, hid⟩ := hc.missing_of_refuses (hes ▸ he) hi hd
      obtain rfl := name hid
      exact .inr (.inr (.inl (System.result?_eq_some.mpr hp)))
    | _ => cases hcall
  · cases hc with
    | list hc =>
      refine .inr (.inr (.inr ⟨_, _, hp, fun statuses hres => ?_⟩))
      have heq := System.result?_eq_some.mp hres
      rw [hp] at heq
      exact hc.drops hmem hi hd (Store.origins_eq hr) (by cases heq; rfl)
    | _ => cases hcall

/-- How often the agent of a record was closed. -/
structure Closed (log : List Note) (s : System) (i : Nat) (r : Record) (times : Nat) : Prop where
  asked : (chronicle i log).countP (·.deed.closes? = some r.agent) = times
  closed : (chronicle i log).countP (·.deed.closed? = some r.agent) = times
  /-- No other connection is closed at the record. -/
  own : ∀ n ∈ chronicle i log, ∀ agent, n.deed.closes? = some agent ∨ n.deed.closed? = some agent → agent = r.agent
  /-- It was not closed anywhere else, unless another record has it, too. -/
  whole : (∀ j q, s.store.records[j]? = some q → q.agent = r.agent → j = i) →
    log.countP (·.deed.closes? = some r.agent) = times ∧ log.countP (·.deed.closed? = some r.agent) = times

theorem Deed.closes_iff {d : Deed} : d.closes = true ↔ ∃ agent, d.closes? = some agent := by
  unfold closes closes?
  split <;> simp

theorem Deed.closed_iff {d : Deed} : d.closed = true ↔ ∃ agent, d.closed? = some agent := by
  unfold closed closed?
  split <;> simp

theorem Deed.destroys_iff {d : Deed} : d.destroys = true ↔ ∃ machine, d.destroyed? = some machine := by
  unfold destroys destroyed?
  split <;> simp

theorem Run.closes_own (h : Run (.new backend catalog now) log s) {i : Nat} {r : Record}
    (hr : s.store.records[i]? = some r) {n : Note} (hn : n ∈ chronicle i log) {agent : Connection}
    (hd : n.deed.closes? = some agent ∨ n.deed.closed? = some agent) : agent = r.agent := by
  obtain heq | heq := h.names hr hn _ (hd.elim Deed.names?_of_closes? Deed.names?_of_closed?)
  · cases heq
  · exact Sum.inr.inj heq

theorem Run.destroyed_own (h : Run (.new backend catalog now) log s) {i : Nat} {r : Record}
    (hr : s.store.records[i]? = some r) {n : Note} (hn : n ∈ chronicle i log) (hd : n.deed.destroys = true) :
    n.deed.destroyed? = some r.machine := by
  obtain ⟨machine, hd⟩ := Deed.destroys_iff.mp hd
  obtain heq | heq := h.names hr hn _ (Deed.names?_of_destroyed? hd)
  · rw [hd, Sum.inl.inj heq]
    rfl
  · cases heq

/-- What is closed at a record is its agent, and its agent is closed at a record that has it. -/
theorem Run.closed_times (h : Run (.new backend catalog now) log s) {i times : Nat} {r : Record}
    (hr : s.store.records[i]? = some r) (hcloses : (chronicle i log).countP (·.deed.closes) = times)
    (hclosed : (chronicle i log).countP (·.deed.closed) = times) : Closed log s i r times := by
  have asked : (chronicle i log).countP (·.deed.closes? = some r.agent) = times := by
    rw [← hcloses]
    refine List.countP_congr fun n hn => ?_
    rw [decide_eq_true_eq, Deed.closes_iff]
    refine ⟨fun hd => ⟨_, hd⟩, ?_⟩
    rintro ⟨agent, hd⟩
    rw [hd, h.closes_own hr hn (.inl hd)]
  have closed : (chronicle i log).countP (·.deed.closed? = some r.agent) = times := by
    rw [← hclosed]
    refine List.countP_congr fun n hn => ?_
    rw [decide_eq_true_eq, Deed.closed_iff]
    refine ⟨fun hd => ⟨_, hd⟩, ?_⟩
    rintro ⟨agent, hd⟩
    rw [hd, h.closes_own hr hn (.inr hd)]
  refine ⟨asked, closed, fun n hn agent hd => h.closes_own hr hn hd, fun hsole => ?_⟩
  have here {n : Note} (hn : n ∈ log) (hd : n.deed.closes? = some r.agent ∨ n.deed.closed? = some r.agent) :
      n.record = some i := by
    obtain ⟨j, q, hj, hq, hagent⟩ := h.record_of_closes hn hd
    rw [hj, hsole j q hq hagent]
  constructor
  · rw [← asked]
    exact @countP_of_record (fun d => d.closes? = some r.agent) log i fun n hn hd => here hn (.inl (of_decide_eq_true hd))
  · rw [← closed]
    exact @countP_of_record (fun d => d.closed? = some r.agent) log i fun n hn hd => here hn (.inr (of_decide_eq_true hd))

/-- Whether the end or the state of a machine is asked for. -/
def Deed.asksMachine : Deed → Bool
  | .asks (.backend (.destroy _)) | .asks (.backend (.state _)) => true
  | _ => false

/-- How a sandbox is removed in a run, by the chronicle of its record. -/
structure RemovedOnce (log : List Note) (s : System) (i : Nat) (r : Record) : Prop where
  /-- At most one remove succeeds. -/
  once : (chronicle i log).countP (·.deed.removes) ≤ 1
  /-- What is asked for or told of machines and connections at the record is of its own machine and agent. -/
  own : ∀ n ∈ chronicle i log, ∀ x, n.deed.names? = some x → x = .inl r.machine ∨ x = .inr r.agent
  /-- A destroy may fail at any time. The remove fails so; the record has not been marked and its agent not closed, and
      all that changes is that the lock is let go. -/
  failed : ∀ {me : Strand}, s.work? me = some (i, .destroying) → ∀ f,
    r.removed = false ∧ Closed log s i r 0 ∧
      (∃ id text, f.asDestroy r.id = .destroy id text) ∧
      ∃ t, s.answer me (.backend (.destroy r.machine)) (.error f) = some t ∧
        t.result? me.call (.remove r.id) = some (.error (f.asDestroy r.id)) ∧ t.store = s.store.put i r.released
  /-- Nobody is refused before its agent is closed. -/
  usable : ∀ {pre post : List Note} {e : Note}, chronicle i log = pre ++ e :: post → e.deed.refuses = true →
    ∃ n ∈ pre, n.deed.closed? = some r.agent
  /-- When every call is over, its agent was closed as often as a remove succeeded. -/
  settled : s.Idle → Closed log s i r ((chronicle i log).countP (·.deed.removes))
  /-- Its agent is asked to close after a destroy of its machine that succeeded. -/
  closing : ∀ {pre post : List Note} {e : Note}, chronicle i log = pre ++ e :: post →
    e.deed.closes? = some r.agent → ∃ n ∈ pre, n.deed.destroyed? = some r.machine
  /-- After that destroy neither the end nor the state of a machine is asked for at the record. -/
  quiet : ∀ {pre post : List Note} {e : Note}, chronicle i log = pre ++ e :: post →
    e.deed.destroyed? = some r.machine → ∀ n ∈ post, n.deed.asksMachine = false
  /-- Whoever gets the lock after that destroy finds no sandbox. -/
  refused : ∀ {pre post : List Note} {e : Note}, chronicle i log = pre ++ e :: post →
    e.deed.destroyed? = some r.machine → ∀ n ∈ post, n.deed = .locks → s.Misses n.strand.call r.id

theorem Deed.accepts_of_asksMachine {d : Deed} (h : d.asksMachine = true) : d.accepts = true := by
  unfold asksMachine at h
  split at h <;> first | rfl | cases h

/-- A record is not gone on with after a destroy that succeeded. -/
theorem Guarded.accepts_eq_false {ns pre post : List Note} {r : Record} {w : Option (Nat × Work)} {e : Note}
    (h : Guarded ns r w) (hs : ns = pre ++ e :: post) (hd : e.deed.destroys = true) {n : Note} (hn : n ∈ post) :
    n.deed.accepts = false := by
  obtain ⟨mid, rest, rfl⟩ := List.append_of_mem hn
  cases ha : n.deed.accepts with
  | false => rfl
  | true =>
    have hz := (h.ordered (pre ++ e :: mid) n rest (by rw [hs, List.append_assoc]; rfl)).accepts ha
    exact absurd hd (List.countP_eq_zero.mp hz e (List.mem_append_right _ (List.mem_cons_self ..)))

theorem removed_once (h : Run (.new backend catalog now) log s) {i : Nat} {r : Record}
    (hr : s.store.records[i]? = some r) : RemovedOnce log s i r := by
  obtain ⟨w, hsits, hlife⟩ := h.life hr
  have hg := hlife.guarded
  have before {pre post : List Note} {e n : Note} (hs : chronicle i log = pre ++ e :: post) (hn : n ∈ pre) :
      n ∈ chronicle i log :=
    hs ▸ List.mem_append_left _ hn
  refine ⟨h.removes_le hr, fun n hn => h.names hr hn, ?_, ?_, ?_, ?_, ?_, ?_⟩
  · intro me hw f
    obtain rfl : w = some (me.call, .destroying) := (hsits _ _).mpr ⟨me, rfl, hw⟩
    have hremoved : r.removed.toNat = 0 := congrArg Bool.toNat hg.unmarked
    refine ⟨hg.unmarked, h.closed_times hr (hg.closes.trans hremoved) (hg.closed.trans hremoved), ?_,
      h.undestroyed hr hw f⟩
    cases f <;> exact ⟨_, _, rfl⟩
  · intro pre post e hs hd
    have hone := (hg.ordered pre e post hs).refuses hd
    obtain ⟨n, hn, hclosed⟩ := List.countP_pos_iff.mp (Nat.lt_of_lt_of_eq Nat.one_pos hone.symm)
    obtain ⟨agent, hclosed⟩ := Deed.closed_iff.mp hclosed
    exact ⟨n, hn, by rw [hclosed, h.closes_own hr (before hs hn) (.inr hclosed)]⟩
  · intro hidle
    obtain rfl := hidle.sits hsits
    have hclosed := h.closed_eq_removes hidle hr
    exact h.closed_times hr ((hg.closes.trans hg.closed.symm).trans hclosed) hclosed
  · intro pre post e hs hd
    have hone := (hg.ordered pre e post hs).closes (Deed.closes_iff.mpr ⟨_, hd⟩)
    obtain ⟨n, hn, hdestroys⟩ := List.countP_pos_iff.mp (Nat.lt_of_lt_of_eq Nat.one_pos hone.symm)
    exact ⟨n, hn, h.destroyed_own hr (before hs hn) hdestroys⟩
  · intro pre post e hs hd n hn
    refine Bool.eq_false_iff.mpr fun ha => ?_
    cases (Deed.accepts_of_asksMachine ha).symm.trans (hg.accepts_eq_false hs (Deed.destroys_iff.mpr ⟨_, hd⟩) hn)
  · intro pre post e hs hd n hn hlocks
    have hd : e.deed.destroys = true := Deed.destroys_iff.mpr ⟨_, hd⟩
    obtain ⟨mid, rest, rfl⟩ := List.append_of_mem hn
    obtain ⟨next, tail, rfl, hstrand, hnext⟩ :=
      hlife.followed (pre ++ e :: mid) n rest (by rw [hs, List.append_assoc]; rfl) hlocks
    have hmem : next ∈ mid ++ n :: next :: tail := by simp
    rw [hg.accepts_eq_false hs hd hmem] at hnext
    rw [← hstrand]
    exact h.misses hr (hs ▸ List.mem_append_right _ (List.mem_cons_of_mem _ hmem)) (hnext.resolve_left Bool.noConfusion)

end

/-- In the tour a remove fails, the next one succeeds, and the status that waits behind it finds no sandbox. -/
theorem removed_once_tour :
    (∃ r, Tour.final.store.records[0]? = some r ∧ RemovedOnce Tour.log Tour.final 0 r) ∧
      Tour.final.result? 4 (.remove "gone") = some (.error (Tour.down.asDestroy "gone")) ∧
      Tour.final.result? 5 (.remove "gone") = some (.ok ()) ∧
      Tour.final.result? 6 (.status "gone") = some (Point.missing "gone") :=
  ⟨⟨_, rfl, removed_once Tour.run rfl⟩, rfl, rfl, rfl⟩

end PodMachines.Pods
