import PodMachines.Proofs.Shim.Inquiry

/-! What a refused request leaves behind. Main statement: while only a request goes on that is refused in the end,
    nothing changes that others could ever tell. -/

namespace PodMachines
open Service Service.Course

/-- What the service keeps between requests. -/
structure Contents where
  directory : Table Nat
  /-- The records as nobody holds their locks. -/
  records : List Pods.Record
  imageBoot : Bool
  images : Option Images
  closed : List Connection

namespace Shim
variable {α : Type} {s t u : Shim α} {m : Move α} {n : Nat} {job job' : Job α}

def contents (s : Shim α) : Contents :=
  ⟨s.pods.store.directory, s.pods.store.records.map Pods.Record.unlocked, s.pods.store.imageBoot, s.images, s.closed⟩

/-- Whether a move is none of another job: it is one of the job, of its inquiries or of a call that these or the job wait
    for, or a course is received, or time passes. -/
def isOwn (s : Shim α) (n : Nat) : Move α → Bool
  | .receive _ | .pods (.pass _) => true
  | .proceed k | .hear k _ => k = n
  | .pursue k | .learn k _ => s.jobs[n]?.any fun job => k ∈ job.inquiries
  | .pods m => s.jobs[n]?.any fun job => m.strand?.any fun me => s.isFor job me.call

/-- A run in which no job goes on but one. -/
inductive Alone (n : Nat) (s : Shim α) : List (Move α) → Shim α → Prop
  | rest : Alone n s [] s
  | move {ms : List (Move α)} {t u : Shim α} (h : Alone n s ms t) (m : Move α) (hm : t.move? m = some u)
      (ho : t.isOwn n m = true) : Alone n s (ms ++ [m]) u

theorem Alone.run {ms : List (Move α)} (h : Alone n s ms t) : ∃ log, Run s ms log t := by
  induction h with
  | rest => exact ⟨[], .rest⟩
  | move _ m hm _ ih =>
    obtain ⟨log, ih⟩ := ih
    exact ⟨_, ih.move m hm⟩

/-- Whether moves can be made and none of them is one of another job. -/
def keepsTo (s : Shim α) (n : Nat) : List (Move α) → Bool
  | [] => true
  | m :: ms => s.isOwn n m && (s.move? m).any fun t => t.keepsTo n ms

theorem Alone.of_keepsTo {ms more : List (Move α)} {log : List Pods.Note} (h : Alone n s ms t)
    (hk : t.keepsTo n more = true) (hf : t.follow more = some (log, u)) : Alone n s (ms ++ more) u := by
  induction more generalizing ms t log with
  | nil =>
    cases hf
    rw [List.append_nil]
    exact h
  | cons m more ih =>
    obtain ⟨v, hv, hf⟩ := Option.bind_eq_some_iff.mp hf
    obtain ⟨⟨rest, w⟩, hf, heq⟩ := Option.map_eq_some_iff.mp hf
    cases heq
    simp only [keepsTo, hv, Option.any_some, Bool.and_eq_true] at hk
    rw [List.append_cons]
    exact ih (h.move m hv hk.1) hk.2 hf

/-! ### Where a job cannot fail any more -/

/-- Whether a job comes to no bad end any more: what is left of it does not, or its call cannot fail any more. -/
def Bound (bad : α → Prop) (s : Shim α) (job : Job α) : Prop :=
  Firm bad job.left ∨
    ∃ (k : Nat) (c : Pods.Call) (next : c.Result → Course α) (p : Pods.Point c), job.call = some k ∧
      job.left = Program.ask (.pods c) next ∧ s.pods.calls[k]? = some ⟨c, p⟩ ∧ Pods.Sure ⟨c, p⟩ ∧
      ∀ result, c.Alters result → Firm bad (next result)

section
variable {bad : α → Prop}

theorem Goes.sure_kept (h : s.Goes m t) {k : Nat} {c : Pods.Call} {p : Pods.Point c}
    (hk : s.pods.calls[k]? = some ⟨c, p⟩) (hs : Pods.Sure ⟨c, p⟩) :
    ∃ p' : Pods.Point c, t.pods.calls[k]? = some ⟨c, p'⟩ ∧ Pods.Sure ⟨c, p'⟩ := by
  obtain ⟨p', hp', rfl | ⟨me, ds, st, hpace⟩⟩ := h.call_goes hk
  · exact ⟨p', hp', hs⟩
  · exact ⟨p', hp', hs.pace hpace⟩

theorem Goes.bound_kept (hg : s.Goes m t) (h : Job.Turn s t n m job job') (hb : Bound bad s job) : Bound bad t job' := by
  obtain hf | ⟨k, c, next, p, hk, hl, hp, hs, ha⟩ := hb
  · refine .inl ?_
    cases h with
    | stay hm hw => exact hf
    | call hl hc ht => exact hf
    | take hl hc hr ht =>
      rw [hl] at hf
      exact hf.next _
    | own hl ho ht =>
      rw [hl] at hf
      exact hf.next _
    | hear hl hw ht =>
      rw [hl] at hf
      exact hf.next _
  · cases h with
    | stay hm hw =>
      obtain ⟨p', hp', hs'⟩ := hg.sure_kept hp hs
      exact .inr ⟨k, c, next, p', hk, hl, hp', hs', ha⟩
    | call hl' hc ht => rw [hk] at hc; cases hc
    | @take job k' c' next' result hl' hc hr ht =>
      obtain rfl := Option.some.inj (hk.symm.trans hc)
      rw [hl] at hl'
      cases hl'
      rw [Pods.System.result?_eq_some, hp] at hr
      cases hr
      exact .inl (ha _ hs.alters)
    | own hl' ho ht =>
      rw [hl] at hl'
      cases hl'
      cases ho
    | @hear _ word _ _ _ hl' hw ht =>
      rw [hl] at hl'
      cases hl'
      cases word <;> cases hw

/-- What the service itself replies comes with no change, or can only be replied once something may have changed. -/
theorem own_contents {act : Act} {reply : act.Reply} (h : s.own act = some (reply, t)) :
    t.contents = s.contents ∨ act.Alters reply := by
  cases act with
  | images => cases h; exact .inl rfl
  | bootImages => exact .inr trivial
  | forget reference => exact .inr trivial
  | keep reference found =>
    simp only [own] at h
    split at h
    · rename_i images hi
      cases h
      cases images with
      | prefixing start => exact .inr trivial
      | directory catalog pulled =>
        cases found with
        | error f => exact .inl (by simp only [contents, hi]; rfl)
        | ok found =>
          cases hu : Image.Directory.unique reference found with
          | error f =>
            refine .inl ?_
            simp only [contents, hi, Images.pulled, Image.Directory.pulled, hu]
          | ok image =>
            refine .inr ?_
            simp only [Images.pulled, Image.Directory.pulled, hu]
            trivial
    · cases h
      exact .inl rfl
  | inquire filter ids => cases h; exact .inl rfl
  | await inquiries => exact .inl (congrArg contents (own_await h).1)
  | _ => cases h

theorem closing_contents {act : Act} (reply : act.Reply) :
    (s.closing act).contents = s.contents ∨ act.Alters reply := by
  cases act with
  | close connection => exact .inr trivial
  | _ => exact .inl rfl

/-- What a strand does with the pods changes nothing, or its call cannot fail any more. -/
theorem strand_contents {pm : Pods.Move} {me : Pods.Strand} {v : Pods.System} (hm : pm.strand? = some me)
    (h : s.pods.move? pm = some v) :
    ({ s with pods := v, closed := s.closed ++ closes pm } : Shim α).contents = s.contents ∨
      ∃ q, v.calls[me.call]? = some q ∧ Pods.Sure q := by
  have made {p q : Pods.Running} {ds : List Pods.Deed} {st : Pods.Store} (hp : s.pods.calls[me.call]? = some p)
      (hv : v = s.pods.after me q st) (hpace : Pods.Pace s.pods.backend me s.pods.store p ds q st)
      (hclose : (∀ d ∈ ds, d.closed = false) → closes pm = []) :
      ({ s with pods := v, closed := s.closed ++ closes pm } : Shim α).contents = s.contents ∨
        ∃ q, v.calls[me.call]? = some q ∧ Pods.Sure q := by
    subst hv
    obtain ⟨halike, hds⟩ | hsure := hpace.alike_or_sure
    · refine .inl ?_
      simp only [contents, Pods.System.after, halike.directory, halike.records, halike.imageBoot, hclose hds,
        List.append_nil]
    · exact .inr ⟨q, List.getElem?_set_self (List.getElem?_eq_some_iff.mp hp).1, hsure⟩
  cases pm with
  | advance me' =>
    cases hm
    obtain ⟨p, q, ds, st, hp, hv, -, hpace⟩ := Pods.System.pace_of_advance h
    exact made hp hv hpace fun _ => rfl
  | answer me' request a =>
    cases hm
    obtain ⟨p, q, ds, st, hp, hv, -, hpace⟩ := Pods.System.pace_of_answer h
    refine made hp hv hpace fun hds => ?_
    have hd := hds _ List.mem_cons_self
    cases request with
    | close connection => cases hd
    | _ => rfl
  | _ => cases hm

/-- A move that is none of another job changes nothing, or the job comes to no bad end any more. -/
theorem Goes.contents_or_bound (hg : s.Goes m t) (ho : s.isOwn n m = true) (hj : s.jobs[n]? = some job) (hs : job.Sound s)
    (hi : ∀ {k : Nat} {i : Inquiry} {number : Nat}, s.inquiries[k]? = some i → i.call = some number →
      ∃ (id : String) (p : Pods.Point (.agent id)), s.pods.calls[number]? = some ⟨.agent id, p⟩)
    (hc : Careful bad job.left) :
    t.contents = s.contents ∨ ∃ job', t.jobs[n]? = some job' ∧ Bound bad t job' := by
  have placed {k : Nat} {job : Job α} {v : Shim α} {act : Act} {reply : act.Reply} {next : act.Reply → Course α}
      (hk : s.jobs[k]? = some job) (hv : v.jobs = s.jobs) :
      (v.told k job act reply next).jobs[k]? = some (job.replied act reply next) := by
    rw [← hv] at hk
    exact List.getElem?_set_self (List.getElem?_eq_some_iff.mp hk).1
  cases hg with
  | receive course => exact .inl rfl
  | call hk hl hcall => exact .inl rfl
  | take hk hl hcall hr => exact .inl rfl
  | seek | find | learn => exact .inl rfl
  | @own k old act next reply v hk hl hown =>
    obtain rfl : k = n := of_decide_eq_true ho
    obtain rfl := Option.some.inj (hk.symm.trans hj)
    rw [hl] at hc
    refine (own_contents hown).imp (fun h => h) fun ha => ?_
    exact ⟨_, placed hk (own_jobs hown), .inl ((hc reply).2 ha)⟩
  | @hear k word old act next reply hk hl hw =>
    obtain rfl : k = n := of_decide_eq_true ho
    obtain rfl := Option.some.inj (hk.symm.trans hj)
    rw [hl] at hc
    refine (closing_contents reply).imp (fun h => h) fun ha => ?_
    exact ⟨_, placed hk (closing_jobs s act), .inl ((hc reply).2 ha)⟩
  | @pods pm v h =>
    cases hm : pm.strand? with
    | none =>
      cases pm with
      | pass milliseconds =>
        cases h
        exact .inl (by simp [contents, closes, Pods.System.pass])
      | start c | enableImageBoot => simp [isOwn, Pods.Move.strand?] at ho
      | _ => cases hm
    | some me =>
      have hown : s.isFor job me.call = true := by
        cases pm with
        | advance me' | answer me' request a =>
          cases hm
          simpa [isOwn, hj, Pods.Move.strand?] using ho
        | _ => cases hm
      obtain hsame | ⟨q, hq, hsure⟩ := strand_contents hm h
      · exact .inl hsame
      · obtain hown | ⟨k, -, i, hk, hcall⟩ := isFor_eq_true.mp hown
        · obtain ⟨c, next, p, hl, hp⟩ := hs.waits hown
          obtain ⟨p', hp'⟩ := (Goes.pods h).call_kept hp
          obtain rfl := Option.some.inj (hq.symm.trans hp')
          rw [hl] at hc
          exact .inr ⟨job, hj, .inr ⟨me.call, c, next, p', hown, hl, hp', hsure, fun result => (hc result).2⟩⟩
        · -- The call of an inquiry looks up an agent, which changes nothing.
          obtain ⟨id, p, hp⟩ := hi hk hcall
          obtain ⟨p', hp'⟩ := (Goes.pods h).call_kept hp
          obtain rfl := Option.some.inj (hq.symm.trans hp')
          cases hsure

/-- A job that comes to no bad end any more comes to none in any run. -/
theorem Run.bound {ms : List (Move α)} {log : List Pods.Note} (h : Run s ms log t) (hj : s.jobs[n]? = some job)
    (hb : Bound bad s job) : ∃ job', t.jobs[n]? = some job' ∧ Bound bad t job' := by
  refine Run.induct (P := fun _ _ t => ∃ job', t.jobs[n]? = some job' ∧ Bound bad t job') ⟨job, hj, hb⟩ ?_ h
  rintro ms log t m u - ⟨old, hold, hb⟩ hg
  obtain ⟨job', hj', hturn⟩ := hg.kept hold
  exact ⟨job', hj', hg.bound_kept hturn hb⟩

end

/-! ### Refused requests -/

theorem contents_of_absent (h : s.jobs[n]? = none) (ho : s.isOwn n m = true) (hg : s.Goes m t) :
    t.contents = s.contents := by
  cases hg with
  | receive course => rfl
  | call hk hl hcall | take hk hl hcall hr | own hk hl hown | hear hk hl hw =>
    obtain rfl := of_decide_eq_true ho
    rw [h] at hk
    cases hk
  | seek | find | learn => rfl
  | @pods pm v hpm =>
    cases pm with
    | pass milliseconds =>
      cases hpm
      simp [contents, closes, Pods.System.pass]
    | _ => simp [isOwn, h] at ho

/-- While no job goes on but that of a request, nothing changes if the request is refused in the end. -/
theorem refused_changes_nothing {backend : String} {catalog : Option String} {now : Nat} {images : Option Images}
    {r : Request} {status : Status} {job : Job Session.Answer} {s t u : Shim Session.Answer}
    {before during after : List (Move Session.Answer)} {log more : List Pods.Note}
    (hbefore : Run (.new backend catalog now images) before log s) (hduring : Alone n s during t)
    (hafter : Run t after more u) (hj : u.jobs[n]? = some job) (hr : job.course = Session.requested backend r)
    (hrefused : job.left = Program.done (.refused status)) : t.contents = s.contents := by
  -- The moves after a state in the stretch lead to the refusal, so the job is not bound there.
  induction hduring generalizing after more with
  | rest => rfl
  | @move ms v w h m hm ho ih =>
    have hrest := (Run.rest.move m hm).trans hafter
    refine Eq.trans ?_ (ih hrest)
    obtain ⟨log', hrun⟩ := h.run
    have hv := hbefore.trans hrun
    cases hk : v.jobs[n]? with
    | none => exact contents_of_absent hk ho (goes_of_move hm)
    | some old =>
      have hsound := hv.sound (Nat.zero_le n) hk
      obtain ⟨job', hj', hcourse⟩ := hrest.kept hk
      obtain rfl := Option.some.inj (hj'.symm.trans hj)
      have hcareful : Careful Session.Answer.Refuses old.left := by
        refine (Session.requested_careful backend r).led (hr ▸ hcourse ▸ hsound.leads)
      obtain hsame | ⟨new, hnew, hbound⟩ :=
        (goes_of_move hm).contents_or_bound ho hk hsound (fun hi hcall => hv.inquiry_call hi hcall) hcareful
      · exact hsame
      · obtain ⟨last, hlast, hfirm | ⟨k, c, next, p, -, hl, -⟩⟩ := hafter.bound hnew hbound
        · obtain rfl := Option.some.inj (hlast.symm.trans hj)
          rw [hrefused] at hfirm
          exact absurd ⟨status, rfl⟩ (hfirm [] _ .rest)
        · obtain rfl := Option.some.inj (hlast.symm.trans hj)
          rw [hrefused] at hl
          cases hl

/-- In the tour nothing changes while a remove goes on that fails in the end. -/
theorem refused_changes_nothing_tour :
    (Tour.first.played (Tour.settle ++ Tour.list ++ Tour.keep 5 6)).2.contents =
        (Tour.first.played (Tour.settle ++ Tour.list)).2.contents ∧
      (Tour.final.jobs[5]?.map fun job => job.left) =
        some (Program.done (.refused (Pods.Tour.down.asDestroy "vm").status)) := by
  have hduring : Alone 5 (Tour.first.played (Tour.settle ++ Tour.list)).2 (Tour.keep 5 6)
      (Tour.first.played (Tour.settle ++ Tour.list ++ Tour.keep 5 6)).2 :=
    Alone.rest.of_keepsTo rfl (follow_played rfl)
  have hafter : Run (Tour.first.played (Tour.settle ++ Tour.list ++ Tour.keep 5 6)).2 Tour.leave _ _ := run_played rfl
  exact ⟨refused_changes_nothing (run_played rfl) hduring hafter rfl rfl rfl, rfl⟩

end Shim
end PodMachines
