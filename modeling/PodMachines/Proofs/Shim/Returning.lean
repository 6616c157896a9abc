import PodMachines.Proofs.Pods.Idle
import PodMachines.Proofs.Shim.Creating
import PodMachines.Proofs.Shim.Moves

/-! How a create goes on. Main statement: wherever it stands, and whatever is replied to the work that is ahead of it,
    it returns what the work comes to, unless it is told a time from which a deadline cannot be counted. -/

namespace PodMachines
open Backend Program

namespace Pods

/-- How many steps a create has before it at most. -/
def Point.stepsAhead {spec : Sandbox.Spec} {suffix : UInt32} : Point (.create spec suffix) → Nat
  | .starting => 7
  | .provisioning _ => 6
  | .addressing _ => 5
  | .connecting .. => 4
  | .discarding .. => 3
  | .entering _ => 2
  | .inside _ => 1
  | _ => 0

/-- Whatever a create is answered brings it closer to its end. -/
theorem Creation.stepsAhead_lt {backend name : String} {o : Origins} {spec : Sandbox.Spec} {suffix : UInt32}
    {p q : Point (.create spec suffix)} {es : List Entry} {me : Strand} {s t : Store} {request : Request}
    {a : request.Answer} (h : Creation backend o spec suffix p es) (hr : p.request? me s = some request)
    (ha : p.answer name me s request a = some (q, t)) : q.stepsAhead < p.stepsAhead := by
  cases h with
  | provisioning vm =>
    cases hr
    cases a <;> cases ha <;> simp [Point.stepsAhead]
  | addressing vm machine =>
    cases hr
    rcases a with f | (_ | ⟨address, rest⟩) <;> cases ha <;> simp [Point.stepsAhead, Point.addressed]
  | connecting vm machine address rest =>
    cases hr
    cases a <;> cases ha <;> simp [Point.stepsAhead]
  | discarding vm h =>
    cases hr
    cases ha
    simp [Point.stepsAhead]
  | _ => cases hr

end Pods

namespace Rig

section
variable {α : Type} {b : Tooled} {k : Agent.Connector} {now : Nat} {images : Option Images} {spec : Sandbox.Spec}
  {suffix : UInt32} {p : Pods.Point (.create spec suffix)} {t : Rig α} {log : List Pods.Note} {n : Nat}

/-! ### How it goes on -/

theorem work_run {o : Order} {σ : Type} {answer : (q : Ask) → σ → q.Reply × σ} {x : σ} {i : Nat}
    {talk : Talk Ask Ask.Reply} {left : Work o.Answer} {a : o.Answer} (hi : t.errands[i]? = some ⟨o, talk, left, false⟩)
    (hrun : (left.run answer x).1 = .done a) :
    Run t [] { t with errands := t.errands.set i ⟨o, talk ++ left.talk answer x, .done a, false⟩ } := by
  induction left generalizing t talk x with
  | done value =>
    cases hrun
    rw [Program.talk, List.append_nil]
    exact rest_run hi
  | crash why => cases hrun
  | ask q next ih =>
    let reply (q : Ask) : q.Reply := (answer q x).1
    have hmore := ih (reply q)
      (t := { t with errands := t.errands.set i ⟨o, talk ++ [⟨q, reply q⟩], next (reply q), false⟩ })
      (List.getElem?_set_self (List.getElem?_eq_some_iff.mp hi).1) hrun
    rw [List.set_set, List.append_assoc] at hmore
    exact (reply_run hi reply).trans hmore

theorem advanced (hp : t.shim.pods.calls[n]? = some ⟨.create spec suffix, p⟩)
    {next : Pods.Point (.create spec suffix) × Pods.Store}
    (hadvance : p.advance ⟨n, 0⟩ t.shim.pods.store = some next) : ∃ more u, Run t more u ∧
      u.shim.pods.calls[n]? = some ⟨.create spec suffix, next.1⟩ ∧ u.errands = t.errands := by
  have hpods : t.shim.pods.advance ⟨n, 0⟩ = some (t.shim.pods.place n next) := by
    rw [Pods.System.advance, hp]
    exact congrArg (Option.map (t.shim.pods.place n)) hadvance
  obtain ⟨more, hmore⟩ := pods_run (s := t) (m := .advance ⟨n, 0⟩) rfl hpods
  exact ⟨more, _, hmore, List.getElem?_set_self (List.getElem?_eq_some_iff.mp hp).1, rfl⟩

theorem entered {id : String} {record : Nat}
    (hp : t.shim.pods.calls[n]? = some ⟨.create spec suffix, .entering (.enroll id record)⟩)
    (hfree : t.shim.pods.store.guard = .free) : ∃ more u, Run t more u ∧
      u.shim.pods.calls[n]? = some ⟨.create spec suffix, .inside (.enroll id record)⟩ ∧ u.errands = t.errands := by
  have hadvance : (.entering (.enroll id record) : Pods.Point (.create spec suffix)).advance ⟨n, 0⟩ t.shim.pods.store =
      some (.inside (.enroll id record), { t.shim.pods.store with guard := .writer }) := by
    rw [Pods.Point.advance, hfree]
    rfl
  exact advanced hp hadvance

theorem Run.vacated {connector : Agent.Connector} {first : Backend}
    (h : Run (.new first connector now images) log t) {p : Pods.Running} (hp : t.shim.pods.calls[n]? = some p)
    (hv : p.visits = false) : ∃ more u, Run t more u ∧ u.shim.pods.store.guard = .free ∧
      u.shim.pods.calls[n]? = some p ∧ u.errands = t.errands := by
  induction hcount : t.shim.pods.store.guard.visitors generalizing log t with
  | zero => exact ⟨[], t, .rest, Pods.Guard.eq_free_of_visitors hcount, hp, rfl⟩
  | succ count ih =>
    have hpos : 0 < t.shim.pods.calls.countP Pods.Running.visits := by
      rw [← h.pods.counted.guard, hcount]
      exact Nat.succ_pos count
    obtain ⟨q, hq, hvisits⟩ := List.countP_pos_iff.mp hpos
    obtain ⟨m, hm⟩ := List.getElem?_of_mem hq
    obtain ⟨pods, hpods, hguard, hkept⟩ := h.pods.leaves hm hvisits
    have hne : n ≠ m := by
      rintro rfl
      cases hp.symm.trans hm
      cases hv.symm.trans hvisits
    obtain ⟨leaving, hrun⟩ := pods_run (s := t) (m := .advance ⟨m, 0⟩) rfl hpods
    obtain ⟨more, u, hmore, hfree, hpu, herrands⟩ := ih (h.trans hrun) ((hkept n hne).trans hp) (by
      show pods.store.guard.visitors = count
      rw [hguard, Pods.Guard.visitors_leave, hcount, Nat.add_sub_cancel])
    exact ⟨_, u, hrun.trans hmore, hfree, hpu, herrands⟩

theorem talkFor_begin (n : Nat) (errands : List Errand) (o : Order) (left : Work o.Answer) :
    talkFor n (errands ++ [⟨o, [], left, false⟩]) = talkFor n errands := by
  rw [talkFor, List.filter_append, List.flatMap_append]
  refine List.append_right_eq_self.mpr (List.flatMap_eq_nil_iff.mpr fun e he => ?_)
  obtain rfl := List.mem_singleton.mp (List.mem_of_mem_filter he)
  rfl

/-- Whether a create can go on to a result, with just certain questions asked for it and just their replies. -/
def Returns (t : Rig α) (n : Nat) (spec : Sandbox.Spec) (suffix : UInt32) (more : Talk Ask Ask.Reply)
    (result : Except Failure String) : Prop :=
  ∃ notes u, Run t notes u ∧ talkFor n u.errands = talkFor n t.errands ++ more ∧
    u.shim.pods.result? n (.create spec suffix) = some result

theorem Returns.of_run {u : Rig α} {notes : List Pods.Note} {rest more : Talk Ask Ask.Reply}
    {result : Except Failure String} (h : Returns u n spec suffix rest result) (hu : Run t notes u)
    (htalk : talkFor n u.errands ++ rest = talkFor n t.errands ++ more) : Returns t n spec suffix more result := by
  obtain ⟨notes', v, hv, htalk', hresult⟩ := h
  exact ⟨_, v, hu.trans hv, htalk'.trans htalk, hresult⟩

/-- Nothing more is done for a strand whose work has broken down. -/
theorem Run.mine_of_crash {first u : Rig α} {me : Pods.Strand} {more : List Pods.Note} (h : Run first log t)
    (hf : first.errands = []) {e : Errand} (he : e ∈ t.errands) (hgiver : e.order.giver = .inl me)
    (hopen : e.told = false) {why : String} (hl : e.left = Program.crash why) (hu : Run t more u) :
    mine me u.errands = mine me t.errands := by
  refine Run.induct (P := fun _ u => mine me u.errands = mine me t.errands) rfl ?_ hu
  intro log notes s u hrun ih hg
  have hkept := hrun.mem_of_crash he hl
  -- Work that is not over is the last that was begun for the strand, and that has broken down.
  have last {i : Nat} {x : Errand} (hi : s.errands[i]? = some x) (hx : ∀ y, ¬x.Came first me y)
      (hme : x.order.giver = .inl me) : x = e := by
    have hattended := (h.trans hrun).attended hf me
    obtain ⟨j, hj⟩ := List.getElem?_of_mem hkept
    obtain ⟨past, -, -, -, -, -, -, hall, -⟩ := hattended.last hj hgiver (Errand.not_came_of_untold hopen)
    obtain ⟨past', -, -, -, -, -, -, hall', -⟩ := hattended.last hi hme hx
    exact List.singleton_inj.mp (List.append_inj' (hall'.symm.trans hall) rfl).2
  cases hg with
  | shim hf hm => exact ih
  | @begin o hd hb =>
    have hne := busy_eq_false.mp hb e hkept hopen
    rw [mine_append, ih, show mine me [_] = [] from List.filter_cons_of_neg ?_, List.append_nil]
    rw [decide_eq_true_eq]
    exact fun heq => hne (hgiver.trans heq.symm)
  | @reply i x q next hi hx reply =>
    have hne : x.order.giver ≠ .inl me := by
      intro hme
      have hleft : ∀ a, x.left ≠ Program.done a := fun a h => nomatch hx.symm.trans h
      obtain rfl := last hi (Errand.not_came_of_left hleft) hme
      cases hl.symm.trans hx
    exact (mine_set_of_ne (x.replied q reply next) hi hne rfl).trans ih
  | @tell i x a shim hi ho hx hm =>
    have hne : x.order.giver ≠ .inl me := by
      intro hme
      obtain rfl := last hi (Errand.not_came_of_untold ho) hme
      cases hl.symm.trans hx
    exact (mine_set_of_ne { x with told := true } hi hne rfl).trans ih

variable [Doc.Parsers]

/-- What is replied to the work that a create waits for is added to all that was asked for it. -/
theorem Run.talkFor_set (h : Run (.new b.backend k now images) log t)
    (hp : t.shim.pods.calls[n]? = some ⟨.create spec suffix, p⟩) {i : Nat} {e e' : Errand}
    (hi : t.errands[i]? = some e) {u : Rig α} {notes : List Pods.Note} (hu : Run t notes u)
    (herrands : u.errands = t.errands.set i e') (hgiver : e.order.giver = .inl ⟨n, 0⟩) (hopen : e.told = false)
    (horder : e'.order = e.order) {more : Talk Ask Ask.Reply} (htalk : e'.talk = e.talk ++ more) :
    talkFor n u.errands = talkFor n t.errands ++ more := by
  obtain ⟨past, -, -, -, -, -, -, hall, hset⟩ :=
    (h.attended rfl ⟨n, 0⟩).last hi hgiver (Errand.not_came_of_untold hopen)
  obtain ⟨p', hp'⟩ := hu.call_kept hp
  rw [talkFor, talkFor, (h.trans hu).filter_call? hp', h.filter_call? hp, herrands,
    hset e' (horder ▸ hgiver), hall, List.flatMap_append, List.flatMap_append, List.flatMap_singleton,
    List.flatMap_singleton, htalk, List.append_assoc]

/-- An answer takes a create closer to its end, and what is ahead of it there is what follows from the answer. -/
theorem Run.answered (h : Run (.new b.backend k now images) log t)
    (hp : t.shim.pods.calls[n]? = some ⟨.create spec suffix, p⟩) {request : Pods.Request}
    (hr : p.request? ⟨n, 0⟩ t.shim.pods.store = some request) {a : request.Answer} {pods : Pods.System}
    (hpods : t.shim.pods.answer ⟨n, 0⟩ request a = some pods) :
    ∃ (q : Pods.Point (.create spec suffix)) (st : Pods.Store), pods = t.shim.pods.place n (q, st) ∧
      q.stepsAhead < p.stepsAhead ∧ b.onward k ⟨n, 0⟩ t.shim.pods.store p request a = b.ahead k st q := by
  have hasks : t.shim.pods.request? ⟨n, 0⟩ = some request := (Pods.System.request?_of_call hp).trans hr
  rw [Pods.System.answer, if_pos hasks, hp] at hpods
  obtain ⟨⟨q, st⟩, hq, rfl⟩ := Option.map_eq_some_iff.mp hpods
  rw [show t.shim.pods.backend = b.backend.name from h.pods.backend_eq] at hq
  refine ⟨q, st, rfl, (h.pods.creation hp).stepsAhead_lt hr hq, ?_⟩
  rw [Tooled.onward, hq]
  rfl

/-- A create whose work comes to something is told of it, and goes on. -/
theorem Run.told_create (h : Run (.new b.backend k now images) log t)
    (hp : t.shim.pods.calls[n]? = some ⟨.create spec suffix, p⟩) {σ : Type} {answer : (q : Ask) → σ → q.Reply × σ}
    {x : σ} {i : Nat} {request : Pods.Request} {talk : Talk Ask Ask.Reply} {left : Work request.Answer}
    (hi : t.errands[i]? = some ⟨.strand ⟨n, 0⟩ request, talk, left, false⟩)
    (hr : p.request? ⟨n, 0⟩ t.shim.pods.store = some request) {result : Except Failure String}
    (hrun : ((left.bind (b.onward k ⟨n, 0⟩ t.shim.pods.store p request)).run answer x).1 = .done result) :
    ∃ q y more u, q.stepsAhead < p.stepsAhead ∧ Run t more u ∧
      u.shim.pods.calls[n]? = some ⟨.create spec suffix, q⟩ ∧ u.busy (.inl ⟨n, 0⟩) = false ∧
      ((b.ahead k u.shim.pods.store q).run answer y).1 = .done result ∧
      talkFor n u.errands ++ (b.ahead k u.shim.pods.store q).talk answer y =
        talkFor n t.errands ++ (left.bind (b.onward k ⟨n, 0⟩ t.shim.pods.store p request)).talk answer x := by
  rw [Program.run_bind] at hrun
  rcases hleft : left.run answer x with ⟨a | why, y⟩ <;> rw [hleft] at hrun
  · have hworked := work_run (o := .strand ⟨n, 0⟩ request) hi (congrArg Prod.fst hleft)
    have hdone := List.getElem?_set_self (List.getElem?_eq_some_iff.mp hi).1
      (a := (⟨.strand ⟨n, 0⟩ request, talk ++ left.talk answer x, .done a, false⟩ : Errand))
    have hreached := h.trans hworked
    obtain ⟨pods, more, hpods, htold, hidle⟩ := told_run ⟨_, _, _, _, _, hreached⟩ hdone
    obtain ⟨q, st, rfl, hlt, honward⟩ := h.answered hp hr hpods
    refine ⟨q, y, _, _, hlt, hworked.trans htold, ?_, hidle, honward ▸ hrun, ?_⟩
    · exact List.getElem?_set_self (List.getElem?_eq_some_iff.mp hp).1
    · have htalk := h.talkFor_set hp hi (hworked.trans htold) (List.set_set ..) rfl rfl rfl rfl
      rw [Program.talk_bind _ hleft, honward, ← List.append_assoc]
      exact congrArg (· ++ _) htalk
  · cases hrun

/-- A create that waits for no work of its own returns what the work ahead of it comes to. -/
theorem Run.returns_of_idle (h : Run (.new b.backend k now images) log t)
    (hp : t.shim.pods.calls[n]? = some ⟨.create spec suffix, p⟩) (hidle : t.busy (.inl ⟨n, 0⟩) = false) {σ : Type}
    {answer : (q : Ask) → σ → q.Reply × σ} {x : σ} {result : Except Failure String}
    (hrun : ((b.ahead k t.shim.pods.store p).run answer x).1 = .done result) :
    Returns t n spec suffix ((b.ahead k t.shim.pods.store p).talk answer x) result := by
  induction hsteps : p.stepsAhead using Nat.strong_induction_on generalizing p t log x with
  | h steps ih =>
    subst hsteps
    have goes {q : Pods.Point (.create spec suffix)} {y : σ} {more : List Pods.Note} {u : Rig α}
        (hlt : q.stepsAhead < p.stepsAhead) (hmore : Run t more u)
        (hq : u.shim.pods.calls[n]? = some ⟨.create spec suffix, q⟩) (hidle : u.busy (.inl ⟨n, 0⟩) = false)
        (hrun : ((b.ahead k u.shim.pods.store q).run answer y).1 = .done result)
        (htalk : talkFor n u.errands ++ (b.ahead k u.shim.pods.store q).talk answer y =
          talkFor n t.errands ++ (b.ahead k t.shim.pods.store p).talk answer x) :
        Returns t n spec suffix ((b.ahead k t.shim.pods.store p).talk answer x) result :=
      (ih _ hlt (h.trans hmore) hq hidle hrun rfl).of_run hmore htalk
    -- A step that the create makes by itself changes neither what was asked for it nor what is ahead of it.
    have silent {q : Pods.Point (.create spec suffix)} {more : List Pods.Note} {u : Rig α}
        (hlt : q.stepsAhead < p.stepsAhead) (hmore : Run t more u)
        (hq : u.shim.pods.calls[n]? = some ⟨.create spec suffix, q⟩) (herrands : u.errands = t.errands)
        (hahead : b.ahead k u.shim.pods.store q = b.ahead k t.shim.pods.store p) :
        Returns t n spec suffix ((b.ahead k t.shim.pods.store p).talk answer x) result :=
      goes hlt hmore hq (by rwa [busy, herrands]) (hahead ▸ hrun) (by rw [herrands, hahead])
    have asked {request : Pods.Request} (hr : p.request? ⟨n, 0⟩ t.shim.pods.store = some request)
        (hcount : t.shim.pods.strandCount n = 1) :
        Returns t n spec suffix ((b.ahead k t.shim.pods.store p).talk answer x) result := by
      have hasks : t.shim.pods.request? ⟨n, 0⟩ = some request := (Pods.System.request?_of_call hp).trans hr
      have hdue : t.due (.strand ⟨n, 0⟩ request) = true :=
        Bool.and_eq_true_iff.mpr ⟨decide_eq_true hasks, decide_eq_true (hcount ▸ Nat.one_pos)⟩
      have hbegun := begin_run hdue hidle
      have hahead := ahead_of_asks (b := b) (k := k) h.same.1 h.same.2 (h.pods.creation hp) hr
      rw [hahead] at hrun
      obtain ⟨q, y, more, u, hlt, hmore, hq, hidle, hrun, htalk⟩ :=
        (h.trans hbegun).told_create hp List.getElem?_concat_length hr hrun
      rw [talkFor_begin] at htalk
      exact goes hlt (hbegun.trans hmore) hq hidle hrun (hahead ▸ htalk)
    have finished {result' : Except Failure String} (hr : Outcome.done result' = .done result)
        (hp : t.shim.pods.calls[n]? = some ⟨.create spec suffix, .finished result'⟩) :
        Returns t n spec suffix [] result := by
      cases hr
      exact ⟨[], t, .rest, (List.append_nil _).symm, Pods.System.result?_eq_some.mpr hp⟩
    have hc := h.pods.creation hp
    generalize (Pods.account n log).map Pods.Note.entry = es at hc
    cases hc with
    | starting =>
      obtain ⟨more, u, hmore, hq, herrands⟩ := advanced hp rfl
      exact silent (by simp [Pods.Point.stepsAhead]) hmore hq herrands rfl
    | connected vm rest hi =>
      obtain ⟨leaving, u, hleaving, hfree, hpu, herrands⟩ := h.vacated hp rfl
      obtain ⟨more, v, hmore, hq, herrands'⟩ := entered hpu hfree
      exact silent (by simp [Pods.Point.stepsAhead]) (hleaving.trans hmore) hq (herrands'.trans herrands) rfl
    | enrolling vm rest hi =>
      obtain ⟨more, u, hmore, hq, herrands⟩ := advanced hp rfl
      exact silent (by simp [Pods.Point.stepsAhead]) hmore hq herrands rfl
    | provisioning vm => exact asked rfl (by rw [Pods.System.strandCount, hp])
    | addressing vm machine => exact asked rfl (by rw [Pods.System.strandCount, hp])
    | connecting vm machine address rest => exact asked rfl (by rw [Pods.System.strandCount, hp])
    | discarding vm hlost => exact asked rfl (by rw [Pods.System.strandCount, hp])
    | unprovisioned vm f => exact finished hrun hp
    | discarded vm hlost a => exact finished hrun hp
    | enrolled vm rest hi => exact finished hrun hp

theorem Run.returns (h : Run (.new b.backend k now images) log t)
    (hp : t.shim.pods.calls[n]? = some ⟨.create spec suffix, p⟩) {left : Work (Except Failure String)}
    (hs : Remains b k t n p left) {σ : Type} {answer : (q : Ask) → σ → q.Reply × σ} {x : σ}
    {result : Except Failure String} (hrun : (left.run answer x).1 = .done result) :
    Returns t n spec suffix (left.talk answer x) result := by
  cases hs with
  | idle hidle => exact h.returns_of_idle hp hidle hrun
  | busy hi hr =>
    obtain ⟨q, y, told, u, -, htold, hq, hidle, hrun, htalk⟩ := h.told_create hp hi hr hrun
    exact ((h.trans htold).returns_of_idle hq hidle hrun).of_run htold htalk

/-- How far a create is with the work for its sandbox, of which something is left, and how it goes on. -/
structure Underway (b : Tooled) (k : Agent.Connector) (t : Rig α) (n : Nat) (spec : Sandbox.Spec) (suffix : UInt32)
    (vm : Machine.Spec) (left : Work (Except Failure String)) : Prop where
  /-- The work begins as was asked for the create, with the replies. -/
  leads : (b.creation k vm).Leads (talkFor n t.errands) left
  /-- It has broken down exactly if the last reply was a time from which a deadline cannot be counted. -/
  broken : Broken n t.errands ↔ b.Overdue k vm (talkFor n t.errands)
  /-- Then the tools that end a machine have not been called; and however the service goes on, the create returns
      nothing and calls no tool any more. -/
  lost : b.Overdue k vm (talkFor n t.errands) → b.Breaking k vm (callsFor n t.errands) ∧ ∀ more u, Run t more u →
    u.shim.pods.result? n (.create spec suffix) = none ∧ callsFor n u.errands = callsFor n t.errands
  /-- A result is what the work came to, and a machine that was made has been ended if it is a failure. -/
  ended : ∀ {result : Except Failure String}, t.shim.pods.result? n (.create spec suffix) = some result →
    left = .done result ∧ b.Creating k vm (callsFor n t.errands) result
  /-- Whatever is replied from now on, the create can go on to a result, unless the work breaks down so. -/
  returns : ∀ {σ : Type} (answer : (q : Ask) → σ → q.Reply × σ) (x : σ),
    ¬b.Overdue k vm (talkFor n t.errands ++ left.talk answer x) → ∃ result,
      (left.run answer x).1 = .done result ∧ Returns t n spec suffix (left.talk answer x) result

/-- A create for which work has broken down returns nothing and calls no tool any more, however the service goes on. -/
theorem Run.lost (h : Run (.new b.backend k now images) log t)
    (hp : t.shim.pods.calls[n]? = some ⟨.create spec suffix, p⟩) (hb : Broken n t.errands) {u : Rig α}
    {more : List Pods.Note} (hu : Run t more u) :
    u.shim.pods.result? n (.create spec suffix) = none ∧ talkFor n u.errands = talkFor n t.errands := by
  obtain ⟨e, he, hn, why, hl⟩ := hb
  obtain ⟨hgiver, hopen⟩ := h.waits_of_crash hp he hn hl
  obtain ⟨p', hp'⟩ := hu.call_kept hp
  have hreached := h.trans hu
  constructor
  · exact (hreached.breaking hp' (hu.mem_of_crash he hl) hn hl).2.1
  · rw [talkFor, talkFor, hreached.filter_call? hp', h.filter_call? hp, h.mine_of_crash rfl he hgiver hopen hl hu]

/-- Wherever a create stands, and whatever is replied, it returns what the work for its sandbox comes to, and a machine
    that it got has been ended then if that is a failure; unless the work is told a time from which a deadline cannot be
    counted. Then it never returns, and its machine is left as it is. -/
theorem create_returns_unless_overdue (b : Tooled) (k : Agent.Connector) (images : Option Images)
    (h : Run (.new b.backend k now images) log t) (hp : t.shim.pods.calls[n]? = some ⟨.create spec suffix, p⟩) :
    ∃ image left, Underway b k t n spec suffix (.forPod spec.nspace spec.name image suffix) left := by
  obtain ⟨image, left, hleads, hs⟩ := h.remains hp
  have hbroken : Broken n t.errands ↔
      b.Overdue k (.forPod spec.nspace spec.name image suffix) (talkFor n t.errands) := by
    rw [h.broken_iff hp hs]
    constructor
    · rintro ⟨why, rfl⟩
      exact (Tooled.leads_creation_crash_iff.mp hleads).1
    · intro hover
      exact ⟨_, hleads.unique (Tooled.leads_creation_crash_iff.mpr ⟨hover, rfl⟩)⟩
  refine ⟨image, left, hleads, hbroken, fun hover => ⟨?_, fun more u hu => ?_⟩, fun hresult => ?_,
    fun answer x hnot => ?_⟩
  · rw [← toolCalls_talkFor]
    exact hover.breaking
  · obtain ⟨hnone, htalk⟩ := h.lost hp (hbroken.mpr hover) hu
    rw [← toolCalls_talkFor, htalk, toolCalls_talkFor]
    exact ⟨hnone, rfl⟩
  · cases hp.symm.trans (Pods.System.result?_eq_some.mp hresult)
    obtain rfl := hs.ended
    rw [← toolCalls_talkFor]
    exact ⟨rfl, Tooled.creating_of_leads hleads⟩
  · obtain ⟨result, hrun, -⟩ | ⟨why, -, hcrash⟩ := leads_talk answer left x
    · exact ⟨result, hrun, h.returns hp hs hrun⟩
    · exact absurd (Tooled.leads_creation_crash_iff.mp (hleads.trans hcrash)).1 hnot

end

/-- A create that could not ask for an address has returned that, once its machine was ended. -/
theorem create_returned_lost : ∃ image, Underway Tour.tool .meeting Loss.final 0 Loss.spec 1
    (.forPod "" "" image 1) (.done (.error (.network "vmpod-00000001" Loss.failure.message))) := by
  have hresult : Loss.final.shim.pods.result? 0 (.create Loss.spec 1) =
      some (.error (.network "vmpod-00000001" Loss.failure.message)) := by
    decide +kernel
  obtain ⟨image, left, hunderway⟩ :=
    create_returns_unless_overdue Tour.tool .meeting none Loss.run (Pods.System.result?_eq_some.mp hresult)
  obtain ⟨rfl, -⟩ := hunderway.ended hresult
  exact ⟨image, hunderway⟩

namespace Endless

/-- A file that asks for as many seconds as the clock can count. -/
def files : Files :=
  Files.empty.put "virtualbox.json"
    (.file "\x7b\"net_device\":\"eth0\",\"vm_src\":\"base\",\"ip_wait_secs\":9223372036854775808\x7d".toUTF8.toList)

def config : Config.VirtualBox :=
  ⟨"eth0", "base", 0x8000000000000000⟩

def first : Rig Session.Answer :=
  .new (Tooled.virtualBox config).backend .meeting 0 none

def log : List Pods.Note :=
  (first.played Overlong.moves).1

def final : Rig Session.Answer :=
  (first.played Overlong.moves).2

theorem run : Run first log final :=
  run_played (by decide +kernel)

end Endless

/-- The file is accepted; a create clones a machine and starts it, and then never returns and never ends it. -/
theorem create_never_returns :
    Config.VirtualBox.form.load Endless.files "." = .ok Endless.config ∧
      (callsFor 0 Endless.final.errands).map Prod.fst =
        [VirtualBox.clone Endless.config (Tour.vm 1), VirtualBox.bridge Endless.config (Tour.vm 1).name,
          VirtualBox.launch (Tour.vm 1).name] ∧
      ∀ more u, Run Endless.final more u → u.shim.pods.result? 0 (.create Loss.spec 1) = none ∧
        callsFor 0 u.errands = callsFor 0 Endless.final.errands := by
  refine ⟨eq_ok_of_toOption (by decide +kernel), by decide +kernel, fun more u hu => ?_⟩
  have hcall : Endless.final.shim.pods.calls[0]?.map Pods.Running.call = some (.create Loss.spec 1) := by
    decide +kernel
  obtain ⟨⟨c, p⟩, hp, hc⟩ := Option.map_eq_some_iff.mp hcall
  obtain rfl : c = .create Loss.spec 1 := hc
  obtain ⟨hnone, htalk⟩ := Endless.run.lost (b := .virtualBox Endless.config) hp (by decide +kernel) hu
  rw [← toolCalls_talkFor, htalk, toolCalls_talkFor]
  exact ⟨hnone, rfl⟩

end Rig
end PodMachines
