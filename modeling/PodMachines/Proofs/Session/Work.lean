import PodMachines.Proofs.Shim.Behalf
import PodMachines.Proofs.Shim.Moves
import PodMachines.Session.Step

/-! Work in a session. What a session does for a call at its turn, in its one order and with its simulated outside, is a
    run of the service with those who work for it. Main statement: a call's turn is such a run, which leaves all else
    alone. -/

namespace PodMachines
open Service

namespace Rig
variable {α : Type} {s t u : Rig α} {o o' : Order} {i n : Nat}

/-- Work is under way for an order, with so much left of it. -/
def Holds (s : Rig α) (o : Order) (left : Work o.Answer) : Prop :=
  ∃ (i : Nat) (talk : Program.Talk Ask Ask.Reply), s.errands[i]? = some ⟨o, talk, left, false⟩

/-! ### What is left alone -/

/-- Work goes on as it did for all but some. -/
structure Spares (mine : Pods.Strand ⊕ Nat → Prop) (s t : Rig α) : Prop where
  holds : ∀ o left, ¬mine o.giver → s.Holds o left → t.Holds o left
  idle : ∀ who, ¬mine who → s.busy who = false → t.busy who = false

section
variable {mine : Pods.Strand ⊕ Nat → Prop}

theorem Spares.trans (h : Spares mine s t) (h' : Spares mine t u) : Spares mine s u :=
  ⟨fun o left ho hs => h'.holds o left ho (h.holds o left ho hs), fun who hw hs => h'.idle who hw (h.idle who hw hs)⟩

theorem Spares.mono {more : Pods.Strand ⊕ Nat → Prop} (h : Spares mine s t) (hm : ∀ who, mine who → more who) :
    Spares more s t :=
  ⟨fun o left ho => h.holds o left fun hw => ho (hm _ hw), fun who hw => h.idle who fun hw' => hw (hm _ hw')⟩

theorem Spares.of_set {e e' : Errand} (hi : s.errands[i]? = some e) (ht : t.errands = s.errands.set i e')
    (horder : e'.order = e.order) (hmine : mine e.order.giver) : Spares mine s t := by
  refine ⟨fun o left ho hs => ?_, fun who hw hs => busy_eq_false.mpr fun x hx hopen => ?_⟩
  · obtain ⟨k, talk, hk⟩ := hs
    refine ⟨k, talk, ?_⟩
    rw [ht, List.getElem?_set_ne, hk]
    rintro rfl
    obtain rfl := Option.some.inj (hi.symm.trans hk)
    exact ho hmine
  · rw [ht] at hx
    obtain hx | rfl := List.mem_or_eq_of_mem_set hx
    · exact busy_eq_false.mp hs x hx hopen
    · rintro rfl
      exact hw (horder ▸ hmine)

theorem Spares.of_begin (hmine : mine o.giver) (ht : t.errands = s.errands ++ [⟨o, [], s.work o, false⟩]) :
    Spares mine s t := by
  refine ⟨fun o' left ho hs => ?_, fun who hw hs => busy_eq_false.mpr fun x hx hopen => ?_⟩
  · obtain ⟨k, talk, hk⟩ := hs
    refine ⟨k, talk, ?_⟩
    rw [ht, List.getElem?_append_left (List.getElem?_eq_some_iff.mp hk).1, hk]
  · rw [ht] at hx
    obtain hx | hx := List.mem_append.mp hx
    · exact busy_eq_false.mp hs x hx hopen
    · obtain rfl := List.mem_singleton.mp hx
      rintro rfl
      exact hw hmine

theorem Spares.of_eq (ht : t.errands = s.errands) : Spares mine s t := by
  refine ⟨fun o left _ hs => ?_, fun who _ hs => ?_⟩
  · rw [Holds, ht]
    exact hs
  · rw [busy, ht]
    exact hs

end

end Rig

/-! ### Work as far as it goes -/

namespace Session
variable {α : Type}

/-- What is left of work that waits. -/
def Waiting.Left (w : Waiting α) (left : Work α) : Prop :=
  match w with
  | .time _ rest => left = rest
  | .turns _ q _ next => left = Program.ask q next

/-- What is left of work that has come so far. -/
def Progress.Left (p : Progress α) (left : Work α) : Prop :=
  match p with
  | .ended a => left = .done a
  | .crashed why => left = .crash why
  | .waiting w => w.Left left

theorem goOn_ask {q : Ask} {next : q.Reply → Work α} (hq : ∀ milliseconds, q ≠ .sleep milliseconds) (now : Nat)
    (w : World) : goOn now (Program.ask q next) w =
      if (w.plan q).1.turns = 0 then
        goOn now (next ((w.plan q).2.reply now (w.plan q).1.verdict q).1)
          ((w.plan q).2.reply now (w.plan q).1.verdict q).2
      else (.waiting (.turns (w.plan q).1.turns q (w.plan q).1.verdict next), (w.plan q).2) := by
  cases q with
  | sleep milliseconds => exact absurd rfl (hq milliseconds)
  | _ => rfl

end Session

section
open Session
variable {α : Type} {s : Rig α} {o : Rig.Order} {i : Nat} {talk : Program.Talk Ask Ask.Reply}

theorem goOn_run {work : Work o.Answer} (hi : s.errands[i]? = some ⟨o, talk, work, false⟩) (now : Nat) (w : World) :
    ∃ talk' left, (goOn now work w).1.Left left ∧
      Rig.Run s [] { s with errands := s.errands.set i ⟨o, talk', left, false⟩ } := by
  induction work generalizing s talk w with
  | done a =>
    exact ⟨talk, _, rfl, Rig.rest_run hi⟩
  | crash why =>
    exact ⟨talk, _, rfl, Rig.rest_run hi⟩
  | ask q next ih =>
    have replied (answer : (q : Ask) → q.Reply) (w : World) : ∃ talk' left, (goOn now (next (answer q)) w).1.Left left ∧
        Rig.Run s [] { s with errands := s.errands.set i ⟨o, talk', left, false⟩ } := by
      obtain ⟨talk', left, hleft, hrun⟩ := ih (answer q)
        (s := { s with errands := s.errands.set i ⟨o, talk ++ [⟨q, answer q⟩], next (answer q), false⟩ })
        (List.getElem?_set_self (List.getElem?_eq_some_iff.mp hi).1) w
      refine ⟨talk', left, hleft, ?_⟩
      rw [List.set_set] at hrun
      exact (Rig.reply_run hi answer).trans hrun
    by_cases hq : ∃ milliseconds, q = .sleep milliseconds
    · obtain ⟨milliseconds, rfl⟩ := hq
      exact ⟨_, next (), rfl, Rig.reply_run hi fun q => (w.reply now .usual q).1⟩
    · rw [goOn_ask (fun milliseconds heq => hq ⟨milliseconds, heq⟩)]
      split
      · exact replied (fun q => ((w.plan q).2.reply now (w.plan q).1.verdict q).1) _
      · exact ⟨talk, _, rfl, Rig.rest_run hi⟩

/-- Work that has waited, as far as it goes at its next turn, is a run. -/
theorem resume_run {left : Work o.Answer} (hi : s.errands[i]? = some ⟨o, talk, left, false⟩) {v : Waiting o.Answer}
    (hv : v.Left left) (now : Nat) (w : World) :
    ∃ talk' left', (v.resume now w).1.Left left' ∧
      Rig.Run s [] { s with errands := s.errands.set i ⟨o, talk', left', false⟩ } := by
  cases v with
  | time at_ rest =>
    obtain rfl : left = rest := hv
    have heq : (Waiting.time at_ left).resume now w =
        if at_ ≤ now then goOn now left w else (.waiting (.time at_ left), w) := rfl
    rw [heq]
    split
    · exact goOn_run hi now w
    · exact ⟨talk, left, rfl, Rig.rest_run hi⟩
  | turns count q verdict next =>
    obtain rfl : left = Program.ask q next := hv
    have heq : (Waiting.turns count q verdict next).resume now w =
        if count ≤ 1 then goOn now (next (w.reply now verdict q).1) (w.reply now verdict q).2
        else (.waiting (.turns (count - 1) q verdict next), w) := rfl
    rw [heq]
    split
    · let e : Rig.Errand := ⟨o, talk ++ [⟨q, (w.reply now verdict q).1⟩], next (w.reply now verdict q).1, false⟩
      obtain ⟨talk', left', hleft, hrun⟩ := goOn_run (s := { s with errands := s.errands.set i e })
        (List.getElem?_set_self (List.getElem?_eq_some_iff.mp hi).1) now (w.reply now verdict q).2
      refine ⟨talk', left', hleft, ?_⟩
      rw [List.set_set] at hrun
      exact (Rig.reply_run hi fun q => (w.reply now verdict q).1).trans hrun
    · exact ⟨talk, _, rfl, Rig.rest_run hi⟩

end

/-! ### Calls under way -/

namespace Session
variable {α : Type} {x : Session} {s t u : Rig α} {c c' c'' : Calling} {part q : Nat}

/-- The service with those who work for it, in the state that a session is in. -/
structure Models (x : Session) (s : Rig α) : Prop where
  backend : s.backend = x.backend
  connector : s.connector = x.connector
  pods : s.shim.pods = x.pods
  images : s.shim.images = x.images
  inquiries : s.shim.inquiries.map Job.result? = x.inquiries
  reached : s.Reached

theorem Models.of_work (hm : x.Models s) {log : List Pods.Note} (hrun : Rig.Run s log t) (hshim : t.shim = s.shim)
    (w : World) : ({ x with world := w } : Session).Models t := by
  refine ⟨?_, ?_, hshim ▸ hm.pods, hshim ▸ hm.images, hshim ▸ hm.inquiries, hm.reached.run hrun⟩
  · rw [hrun.same.1, hm.backend]
  · rw [hrun.same.2, hm.connector]

theorem Models.work_eq (hm : x.Models s) (me : Pods.Strand) (request : Pods.Request) :
    s.work (.strand me request) = x.workOf request := by
  cases request with
  | backend request => rw [Rig.work, hm.backend]; rfl
  | connect address => rw [Rig.work, hm.connector]; rfl
  | close connection => rfl

/-- What is under way for a strand of a call is what the call holds of it. -/
def Calling.Sits (c : Calling) (s : Rig α) (part : Nat) : Prop :=
  match c.flights.find? (·.part = part) with
  | some f => ∃ left, s.Holds (.strand ⟨c.number, part⟩ f.request) left ∧ f.waiting.Left left
  | none => s.busy (.inl ⟨c.number, part⟩) = false

theorem Calling.Sits.spared {mine : Pods.Strand ⊕ Nat → Prop} (h : c.Sits s part) (hs : Rig.Spares mine s t)
    (hnot : ¬mine (.inl ⟨c.number, part⟩)) (hnumber : c'.number = c.number)
    (hf : c'.flights.find? (·.part = part) = c.flights.find? (·.part = part)) : c'.Sits t part := by
  unfold Sits at h ⊢
  rw [hf, hnumber]
  cases hfind : c.flights.find? (·.part = part) with
  | none =>
    rw [hfind] at h
    exact hs.idle _ hnot h
  | some f =>
    rw [hfind] at h
    obtain ⟨left, hh, hleft⟩ := h
    exact ⟨left, hs.holds _ left hnot hh, hleft⟩

/-- How far work for a strand has come. -/
def Came (me : Pods.Strand) (t : Rig α) : (request : Pods.Request) × Progress request.Answer × World → Prop
  | ⟨request, progress, _⟩ => ∃ (i : Nat) (talk : Program.Talk Ask Ask.Reply) (left : Work request.Answer),
    t.errands[i]? = some ⟨.strand me request, talk, left, false⟩ ∧ progress.Left left

theorem Models.pods_run (hm : x.Models s) {m : Pods.Move} (hf : Rig.free (.pods m : Shim.Move α) = true)
    {pods : Pods.System} (h : x.pods.move? m = some pods) :
    ∃ log t, Rig.Run s log t ∧ ({ x with pods := pods } : Session).Models t ∧ t.shim.jobs = s.shim.jobs ∧
      t.shim.inquiries = s.shim.inquiries ∧ t.errands = s.errands := by
  obtain ⟨log, hrun⟩ := Rig.pods_run hf (hm.pods ▸ h)
  exact ⟨log, _, hrun, ⟨hm.backend, hm.connector, rfl, hm.images, hm.inquiries, hm.reached.run hrun⟩, rfl, rfl, rfl⟩

/-- Work that a strand waits for has come to its end, and the strand goes on. -/
theorem Models.answer_run (hm : x.Models s) {i : Nat} {me : Pods.Strand} {request : Pods.Request}
    {talk : Program.Talk Ask Ask.Reply} {a : request.Answer}
    (hi : s.errands[i]? = some ⟨.strand me request, talk, .done a, false⟩) :
    ∃ pods log t, x.pods.answer me request a = some pods ∧ Rig.Run s log t ∧
      ({ x with pods := pods } : Session).Models t ∧ t.shim.jobs = s.shim.jobs ∧ t.shim.inquiries = s.shim.inquiries ∧
      t.errands = s.errands.set i ⟨.strand me request, talk, .done a, true⟩ ∧ t.busy (.inl me) = false := by
  obtain ⟨pods, log, hpods, hrun, hidle⟩ := Rig.told_run hm.reached hi
  exact ⟨pods, log, _, hm.pods ▸ hpods, hrun,
    ⟨hm.backend, hm.connector, rfl, hm.images, hm.inquiries, hm.reached.run hrun⟩, rfl, rfl, rfl, hidle⟩

/-! ### Turns of calls -/

section
variable {flights : List Flight}

theorem find?_others (hq : q ≠ part) :
    (flights.filter (·.part ≠ part)).find? (·.part = q) = flights.find? (·.part = q) := by
  rw [List.find?_filter]
  refine congrArg (flights.find? ·) (funext fun f => ?_)
  by_cases hf : f.part = q
  · simp [hf, hq]
  · simp [hf]

theorem find?_others_self : (flights.filter (·.part ≠ part)).find? (·.part = part) = none := by
  rw [List.find?_filter, List.find?_eq_none]
  intro f _ h
  simp at h

theorem find?_others_add (f : Flight) (hf : f.part = part) :
    (flights.filter (·.part ≠ part) ++ [f]).find? (·.part = q) =
      if q = part then some f else flights.find? (·.part = q) := by
  rw [List.find?_append]
  split
  · rename_i hq
    subst hq
    rw [find?_others_self]
    simp [hf]
  · rename_i hq
    rw [find?_others hq]
    simp [hf, Ne.symm hq]

end

/-- How some strands of a call were driven. -/
structure Drives (parts : Nat → Prop) (c : Calling) (s : Rig α) (c' : Calling) (x : Session) (t : Rig α) : Prop where
  run : ∃ log, Rig.Run s log t
  models : x.Models t
  number : c'.number = c.number
  call : c'.call = c.call
  jobs : t.shim.jobs = s.shim.jobs
  inquiries : t.shim.inquiries = s.shim.inquiries
  spares : Rig.Spares (fun who => ∃ q, parts q ∧ who = .inl ⟨c.number, q⟩) s t
  others : ∀ q, ¬parts q → c'.flights.find? (·.part = q) = c.flights.find? (·.part = q)
  own : c'.broken = none → c.broken = none ∧ ∀ q, parts q → c'.Sits t q

section
variable {parts more both : Nat → Prop} {y : Session}

theorem Drives.sits (h : Drives parts c s c' x t) (hq : ¬parts q) (hs : c.Sits s q) : c'.Sits t q := by
  refine hs.spared h.spares ?_ h.number (h.others q hq)
  rintro ⟨q', hq', heq⟩
  cases heq
  exact hq hq'

theorem Drives.trans (h : Drives parts c s c' x t) (h' : Drives more c' t c'' y u)
    (hboth : ∀ q, both q ↔ parts q ∨ more q) : Drives both c s c'' y u := by
  obtain ⟨log, hrun⟩ := h.run
  obtain ⟨after, hafter⟩ := h'.run
  refine ⟨⟨_, hrun.trans hafter⟩, h'.models, h'.number.trans h.number, h'.call.trans h.call, h'.jobs.trans h.jobs,
    h'.inquiries.trans h.inquiries, (h.spares.mono ?_).trans (h'.spares.mono ?_), fun q hq => ?_, fun hb => ?_⟩
  · rintro _ ⟨q, hq, rfl⟩
    exact ⟨q, (hboth q).mpr (.inl hq), rfl⟩
  · rintro _ ⟨q, hq, rfl⟩
    exact ⟨q, (hboth q).mpr (.inr hq), by rw [h.number]⟩
  · obtain ⟨hfirst, hsecond⟩ := not_or.mp fun hor => hq ((hboth q).mpr hor)
    exact (h'.others q hsecond).trans (h.others q hfirst)
  · obtain ⟨hb', hlast⟩ := h'.own hb
    obtain ⟨hb₀, hfirst⟩ := h.own hb'
    refine ⟨hb₀, fun q hq => ?_⟩
    by_cases hmore : more q
    · exact hlast q hmore
    · exact h'.sits hmore (hfirst q (((hboth q).mp hq).resolve_right hmore))

end

theorem Drives.stay {parts : Nat → Prop} (hm : x.Models s) (hs : ∀ q, parts q → c.Sits s q) : Drives parts c s c x s :=
  ⟨⟨[], .rest⟩, hm, rfl, rfl, rfl, rfl, .of_eq rfl, fun _ _ => rfl, fun h => ⟨h, hs⟩⟩

/-- Work was done for a strand of a call, which the outside has been asked for. -/
structure Works (part : Nat) (c : Calling) (s : Rig α) (x : Session) (t : Rig α) : Prop where
  run : Rig.Run s [] t
  shim : t.shim = s.shim
  models : x.Models t
  spares : Rig.Spares (fun who => ∃ q, q = part ∧ who = .inl ⟨c.number, q⟩) s t

/-- Work for a strand goes on, or is begun, and goes as far as it does. -/
theorem Calling.progress_run (hm : x.Models s) (hs : c.Sits s part) {request : Pods.Request}
    (ha : s.shim.pods.Asks ⟨c.number, part⟩ request) :
    ∃ t, Works part c s { x with world := (c.progress x part request).2.2 } t ∧
      Came ⟨c.number, part⟩ t (c.progress x part request) := by
  have works {t : Rig α} (hrun : Rig.Run s [] t) (hshim : t.shim = s.shim)
      (hspares : Rig.Spares (fun who => ∃ q, q = part ∧ who = .inl ⟨c.number, q⟩) s t) (w : World) :
      Works part c s { x with world := w } t :=
    ⟨hrun, hshim, hm.of_work hrun hshim w, hspares⟩
  unfold Sits at hs
  unfold progress
  cases hfind : c.flights.find? (·.part = part) with
  | some f =>
    rw [hfind] at hs
    obtain ⟨left, ⟨i, talk, hi⟩, hleft⟩ := hs
    obtain ⟨talk', left', hleft', hrun⟩ := resume_run hi hleft x.now x.world
    exact ⟨_, works hrun rfl (.of_set hi rfl rfl ⟨part, rfl, rfl⟩) _,
      i, talk', left', List.getElem?_set_self (List.getElem?_eq_some_iff.mp hi).1, hleft'⟩
  | none =>
    rw [hfind] at hs
    have hdue : s.due (.strand ⟨c.number, part⟩ request) = true :=
      Bool.and_eq_true_iff.mpr ⟨decide_eq_true ha.1, decide_eq_true ha.2⟩
    have hidle : s.busy (Rig.Order.strand ⟨c.number, part⟩ request).giver = false := hs
    have hwork := hm.work_eq ⟨c.number, part⟩ request
    let begun : Rig α :=
      { s with errands := s.errands ++ [⟨.strand ⟨c.number, part⟩ request, [], x.workOf request, false⟩] }
    have hbegin := Rig.begin_run hdue hidle
    rw [hwork] at hbegin
    have hi : begun.errands[s.errands.length]? =
        some ⟨.strand ⟨c.number, part⟩ request, [], x.workOf request, false⟩ := List.getElem?_concat_length
    obtain ⟨talk', left', hleft', hrun⟩ := goOn_run hi x.now x.world
    refine ⟨_, works (hbegin.trans hrun) rfl (.trans ?_ (.of_set hi rfl rfl ⟨part, rfl, rfl⟩)) _,
      s.errands.length, talk', left', List.getElem?_set_self (List.getElem?_eq_some_iff.mp hi).1, hleft'⟩
    exact .of_begin (o := .strand ⟨c.number, part⟩ request) ⟨part, rfl, rfl⟩ (by rw [hwork])

/-- A call without the work that is under way for one of its strands. -/
def Calling.without (c : Calling) (part : Nat) : Calling :=
  { c with flights := c.flights.filter (·.part ≠ part) }

section
variable {request : Pods.Request} {i : Nat} {talk : Program.Talk Ask Ask.Reply}

theorem Works.crashes (h : Works part c s x t) (why : String) :
    Drives (· = part) c s { c.without part with broken := some why } x t :=
  ⟨⟨[], h.run⟩, h.models, rfl, rfl, h.shim ▸ rfl, h.shim ▸ rfl, h.spares, fun _ hq => find?_others hq, nofun⟩

theorem Works.waits (h : Works part c s x t) {left : Work request.Answer}
    (hi : t.errands[i]? = some ⟨.strand ⟨c.number, part⟩ request, talk, left, false⟩) {w : Waiting request.Answer}
    (hw : w.Left left) :
    Drives (· = part) c s { c with flights := (c.without part).flights ++ [⟨part, request, w⟩] } x t := by
  refine ⟨⟨[], h.run⟩, h.models, rfl, rfl, h.shim ▸ rfl, h.shim ▸ rfl, h.spares, fun q hq => ?_,
    fun hb => ⟨hb, fun q hq => ?_⟩⟩
  · exact (find?_others_add ⟨part, request, w⟩ rfl).trans (if_neg hq)
  · subst hq
    unfold Calling.Sits
    rw [Calling.without, find?_others_add ⟨q, request, w⟩ rfl, if_pos rfl]
    exact ⟨left, ⟨i, talk, hi⟩, hw⟩

theorem Works.ends (h : Works part c s x t) {a : request.Answer}
    (hi : t.errands[i]? = some ⟨.strand ⟨c.number, part⟩ request, talk, .done a, false⟩) :
    ∃ pods u, x.pods.answer ⟨c.number, part⟩ request a = some pods ∧
      Drives (· = part) c s (c.without part) { x with pods := pods } u ∧ (c.without part).Sits u part := by
  obtain ⟨pods, log, u, hpods, hrun, hmu, hjobs, hinquiries, herrands, hidle⟩ := h.models.answer_run hi
  have hs : (c.without part).Sits u part := by
    unfold Calling.Sits
    rw [Calling.without, find?_others_self]
    exact hidle
  refine ⟨pods, u, hpods, ⟨⟨_, h.run.trans hrun⟩, hmu, rfl, rfl, hjobs.trans (h.shim ▸ rfl),
    hinquiries.trans (h.shim ▸ rfl), h.spares.trans ?_, fun q hq => find?_others hq,
    fun hb => ⟨hb, fun q hq => hq ▸ hs⟩⟩, hs⟩
  exact .of_set hi herrands rfl ⟨part, rfl, rfl⟩

end

theorem Calling.drive_run (checks : Bool) (most : Nat) (hm : x.Models s) (hs : c.Sits s part)
    (hpart : part = 0 ∨ ∃ filter, ∃ p : Pods.Point (.list filter),
      s.shim.pods.calls[c.number]? = some ⟨.list filter, p⟩) :
    ∃ t, Drives (· = part) c s (c.drive part checks most x).1 (c.drive part checks most x).2 t := by
  induction most generalizing c x s with
  | zero => exact ⟨s, .stay hm fun _ hq => hq ▸ hs⟩
  | succ most ih =>
    -- What comes after the first step.
    have later {c' : Calling} {y : Session} {t : Rig α} (h : Drives (· = part) c s c' y t) (hs' : c'.Sits t part) :
        ∃ u, Drives (· = part) c s (c'.drive part checks most y).1 (c'.drive part checks most y).2 u := by
      have hpart' : part = 0 ∨ ∃ filter, ∃ p : Pods.Point (.list filter),
          t.shim.pods.calls[c'.number]? = some ⟨.list filter, p⟩ := by
        refine hpart.imp_right ?_
        rintro ⟨filter, p, hp⟩
        obtain ⟨log, hrun⟩ := h.run
        obtain ⟨p', hp'⟩ := hrun.call_kept hp
        exact ⟨filter, p', h.number ▸ hp'⟩
      obtain ⟨u, hu⟩ := ih h.models hs' hpart'
      exact ⟨u, h.trans hu fun q => (or_self_iff ..).symm⟩
    rw [Calling.drive]
    dsimp only
    split
    · exact ⟨s, .stay hm fun _ hq => hq ▸ hs⟩
    · split
      · rename_i pods hpods
        obtain ⟨log, t, hrun, hm', hjobs, hinquiries, herrands⟩ :=
          hm.pods_run (m := .advance ⟨c.number, part⟩) rfl hpods
        have hspares : Rig.Spares (fun _ => False) s t := .of_eq herrands
        have hs' : c.Sits t part := hs.spared hspares id rfl rfl
        exact later ⟨⟨log, hrun⟩, hm', rfl, rfl, hjobs, hinquiries, .of_eq herrands, fun _ _ => rfl,
          fun h => ⟨h, fun _ hq => hq ▸ hs'⟩⟩ hs'
      · split
        · exact ⟨s, .stay hm fun _ hq => hq ▸ hs⟩
        · rename_i request hrequest
          obtain ⟨backend, connector, now, images, log, hreached⟩ := hm.reached
          rw [← hm.pods] at hrequest
          have hasks := hreached.pods.asks hrequest hpart
          obtain ⟨t, hworks, hcame⟩ := c.progress_run hm hs hasks
          generalize c.progress x part request = came at hworks hcame ⊢
          obtain ⟨request, progress, world⟩ := came
          obtain ⟨i, talk, left, hi, hleft⟩ := hcame
          cases progress with
          | crashed why => exact ⟨t, hworks.crashes why⟩
          | waiting w => exact ⟨t, hworks.waits hi hleft⟩
          | ended a =>
            obtain rfl : left = .done a := hleft
            obtain ⟨pods, u, hpods, hdrives, hs'⟩ := hworks.ends hi
            dsimp only at hpods ⊢
            rw [hpods]
            exact later hdrives hs'

theorem Calling.checks_run {parts : List Nat} (hm : x.Models s) (hnodup : parts.Nodup) (hs : ∀ q ∈ parts, c.Sits s q)
    {filter : Sandbox.Filter} {p : Pods.Point (.list filter)}
    (hlist : s.shim.pods.calls[c.number]? = some ⟨.list filter, p⟩) :
    ∃ t, Drives (· ∈ parts) c s (parts.foldl (fun (c, x) part => c.drive part true longest x) (c, x)).1
      (parts.foldl (fun (c, x) part => c.drive part true longest x) (c, x)).2 t := by
  induction parts generalizing c x s p with
  | nil => exact ⟨s, .stay hm fun _ hq => absurd hq List.not_mem_nil⟩
  | cons part parts ih =>
    obtain ⟨hnot, hnodup⟩ := List.nodup_cons.mp hnodup
    obtain ⟨t, ht⟩ := Calling.drive_run true longest hm (hs part List.mem_cons_self) (.inr ⟨filter, p, hlist⟩)
    obtain ⟨log, hrun⟩ := ht.run
    obtain ⟨p', hp'⟩ := hrun.call_kept hlist
    obtain ⟨u, hu⟩ := ih ht.models hnodup
      (fun q hq => ht.sits (fun heq => hnot (heq ▸ hq)) (hs q (List.mem_cons_of_mem _ hq))) (ht.number ▸ hp')
    exact ⟨u, ht.trans hu fun q => List.mem_cons⟩

/-- A strand whose work breaks down before there are checks comes to none. -/
theorem Calling.drive_broken (part most : Nat) (x : Session) (hb : c.broken = none) :
    (c.drive part false most x).1.broken = none ∨ isGathering (c.drive part false most x).2 c.number = false := by
  induction most generalizing c x with
  | zero => exact .inl hb
  | succ most ih =>
    rw [Calling.drive]
    dsimp only
    split
    · exact .inl hb
    · rename_i hnot
      split
      · exact ih _ hb
      · split
        · exact .inl hb
        · rename_i request _
          generalize c.progress x part request = came
          obtain ⟨request, progress, world⟩ := came
          cases progress with
          | crashed why => exact .inr (show isGathering x c.number = false by simpa using hnot)
          | waiting w => exact .inl hb
          | ended a =>
            dsimp only
            split
            · exact ih _ hb
            · exact .inl hb

theorem isGathering_eq_true {number : Nat} (h : isGathering x number = true) :
    ∃ c checks, x.pods.calls[number]? = some ⟨c, .gathering checks⟩ := by
  unfold isGathering at h
  split at h
  · rename_i c checks hp
    exact ⟨c, checks, hp⟩
  · cases h

theorem Calling.turn_run (hm : x.Models s) (hb : c.broken = none) (hs : ∀ q, c.Sits s q) :
    ∃ t, Drives (fun _ => True) c s (c.turn x).1 (c.turn x).2 t := by
  have all {parts : Nat → Prop} {c' : Calling} {y : Session} {t : Rig α} (h : Drives parts c s c' y t) :
      Drives (fun _ => True) c s c' y t :=
    ⟨h.run, h.models, h.number, h.call, h.jobs, h.inquiries, h.spares.mono fun _ ⟨q, _, hq⟩ => ⟨q, trivial, hq⟩,
      fun q hq => absurd trivial hq, fun hb' => ⟨hb, fun q _ => by
        by_cases hq : parts q
        · exact (h.own hb').2 q hq
        · exact h.sits hq (hs q)⟩⟩
  obtain ⟨t, ht⟩ := Calling.drive_run false longest hm (hs 0) (.inl rfl)
  have hbroken := Calling.drive_broken 0 longest x hb
  rw [Calling.turn]
  dsimp only
  split
  · rename_i hgathering
    rw [ht.number] at hgathering
    obtain ⟨call, checks, hp⟩ := isGathering_eq_true hgathering
    obtain ⟨backend, connector, now, images, log, hreached⟩ := ht.models.reached
    rw [← ht.models.pods] at hp
    obtain ⟨filter, rfl⟩ := hreached.pods.list_of_gathering hp
    have hb' := hbroken.resolve_right (by rw [hgathering]; nofun)
    obtain ⟨u, hu⟩ := Calling.checks_run ht.models List.nodup_range (fun q _ => ((all ht).own hb').2 q trivial)
      (ht.number ▸ hp)
    exact ⟨u, all (ht.trans hu fun q => Iff.rfl)⟩
  · exact ⟨t, all ht⟩

end Session

end PodMachines
