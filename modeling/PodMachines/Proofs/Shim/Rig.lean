import PodMachines.Proofs.Pods.Question
import PodMachines.Proofs.Shim.Job

/-! The service with those who do the work: its backend answers the pods, its connector finds agents, and its images
    are looked for. What they do on the way is asked of an outside that may reply anything at any time. Main statement:
    what the service goes through is a run of it, and what is worked on is asked for until the work is over. -/

namespace PodMachines
open Service

namespace Rig

/-- What work is done for: a strand that asks, or a job that looks for images. -/
inductive Order
  | strand (me : Pods.Strand) (request : Pods.Request)
  | search (n : Nat) (reference : Image.Reference)

abbrev Order.Answer : Order → Type
  | .strand _ request => request.Answer
  | .search .. => Except Failure (List Image.Record)

/-- Work that was begun. -/
structure Errand where
  order : Order
  /-- What it has asked and been replied. -/
  talk : Program.Talk Ask Ask.Reply
  left : Work order.Answer
  /-- Whether what it came to was told. -/
  told : Bool

/-- Who gives an order: a strand of a call, or a job. -/
def Order.giver : Order → Pods.Strand ⊕ Nat
  | .strand me _ => .inl me
  | .search n _ => .inr n

/-- What the service does when an order is answered. -/
def Order.told {α : Type} : (o : Order) → o.Answer → Shim.Move α
  | .strand me request, a => .pods (.answer me request a)
  | .search n _, found => .hear n (.found found)

theorem Order.of_told {α : Type} {o : Order} {a : o.Answer} {you : Pods.Strand} {other : Pods.Request}
    {b : other.Answer} (h : (o.told a : Shim.Move α) = .pods (.answer you other b)) : o = .strand you other := by
  cases o with
  | search n reference => cases h
  | strand me request =>
    cases h
    rfl

/-- After a reply. -/
def Errand.replied (e : Errand) (q : Ask) (reply : q.Reply) (next : q.Reply → Work e.order.Answer) : Errand :=
  { e with talk := e.talk ++ [⟨q, reply⟩], left := next reply }

end Rig

/-- The service, and the work that was begun for it. -/
structure Rig (α : Type) where
  backend : Backend
  connector : Agent.Connector
  shim : Shim α
  errands : List Rig.Errand

namespace Rig
variable {α : Type}

/-- The service before it has received anything, and before any work. -/
def new (backend : Backend) (connector : Agent.Connector) (now : Nat) (images : Option Images) : Rig α :=
  ⟨backend, connector, .new backend.name backend.catalog now images, []⟩

/-- What is done for an order. -/
def work (s : Rig α) : (o : Order) → Work o.Answer
  | .strand _ (.backend request) => s.backend.serve request
  | .strand _ (.connect address) => s.connector.connect address
  | .strand _ (.close connection) => Work.ask (.hangUp connection)
  | .search _ reference =>
    match s.shim.images with
    | some images => images.find reference
    | none => .done (.ok [])

/-- Whether an order is given. -/
def due (s : Rig α) : Order → Bool
  | .strand me request =>
    s.shim.pods.request? me = some request && me.part < s.shim.pods.strandCount me.call
  | .search n reference =>
    match s.shim.jobs[n]? with
    | some job =>
      match job.left with
      | Program.ask (.find r) _ => r = reference
      | _ => false
    | none => false

/-- Whether work is under way for one. -/
def busy (s : Rig α) (who : Pods.Strand ⊕ Nat) : Bool :=
  s.errands.any fun e => !e.told && e.order.giver = who

theorem busy_eq_false {s : Rig α} {who : Pods.Strand ⊕ Nat} :
    s.busy who = false ↔ ∀ e ∈ s.errands, e.told = false → e.order.giver ≠ who := by
  unfold busy
  rw [List.any_eq_false]
  refine forall_congr' fun e => imp_congr_right fun _ => ?_
  cases e.told <;> simp

/-- What makes the service go on with its work. -/
inductive Move (α : Type)
  /-- The service goes on by itself, or with others than those who work for it. -/
  | shim (m : Shim.Move α)
  | begin (o : Order)
  | reply (i : Nat) (answer : (q : Ask) → q.Reply)
  /-- What work has come to is told. -/
  | tell (i : Nat)

/-- Whether a move of the service needs none of those who work for it. -/
def free : Shim.Move α → Bool
  | .pods (.answer ..) | .hear _ (.found _) => false
  | _ => true

def replied? (s : Rig α) (i : Nat) (e : Errand) (answer : (q : Ask) → q.Reply) : Option (Rig α) :=
  match e.left with
  | Program.ask q next => some { s with errands := s.errands.set i (e.replied q (answer q) next) }
  | _ => none

def told? (s : Rig α) (i : Nat) (e : Errand) : Option (Rig α) :=
  if e.told then none
  else
    match e.left with
    | Program.done a =>
      (s.shim.move? (e.order.told a)).map fun shim =>
        { s with shim := shim, errands := s.errands.set i { e with told := true } }
    | _ => none

/-- The next state, if the move can be made. -/
def move? (s : Rig α) : Move α → Option (Rig α)
  | .shim m => if free m then (s.shim.move? m).map fun shim => { s with shim := shim } else none
  | .begin o =>
    if s.due o && !s.busy o.giver then some { s with errands := s.errands ++ [⟨o, [], s.work o, false⟩] } else none
  | .reply i answer => s.errands[i]?.bind fun e => s.replied? i e answer
  | .tell i => s.errands[i]?.bind (s.told? i)

/-- The move that the service makes. -/
def shim? (s : Rig α) : Move α → Option (Shim.Move α)
  | .shim m => some m
  | .tell i => s.errands[i]?.bind fun e =>
    match e.left with
    | Program.done a => some (e.order.told a)
    | _ => none
  | _ => none

/-- What is noted of the pods at a move. -/
def notes (s : Rig α) (m : Move α) : List Pods.Note :=
  (s.shim? m).elim [] s.shim.notes

/-- What a move is. -/
inductive Goes (s : Rig α) : List Pods.Note → Rig α → Prop
  | shim {m : Shim.Move α} {shim : Shim α} (hf : free m = true) (h : s.shim.move? m = some shim) :
      Goes s (s.shim.notes m) { s with shim := shim }
  | begin {o : Order} (hd : s.due o = true) (hb : s.busy o.giver = false) :
      Goes s [] { s with errands := s.errands ++ [⟨o, [], s.work o, false⟩] }
  | reply {i : Nat} {e : Errand} {q : Ask} {next : q.Reply → Work e.order.Answer} (hi : s.errands[i]? = some e)
      (hl : e.left = Program.ask q next) (reply : q.Reply) :
      Goes s [] { s with errands := s.errands.set i (e.replied q reply next) }
  | tell {i : Nat} {e : Errand} {a : e.order.Answer} {shim : Shim α} (hi : s.errands[i]? = some e)
      (ho : e.told = false) (hl : e.left = Program.done a) (h : s.shim.move? (e.order.told a) = some shim) :
      Goes s (s.shim.notes (e.order.told a)) { s with shim := shim, errands := s.errands.set i { e with told := true } }

theorem goes_of_move {s t : Rig α} {m : Move α} (h : s.move? m = some t) : s.Goes (s.notes m) t := by
  cases m with
  | shim m =>
    simp only [move?] at h
    split at h
    · rename_i hf
      obtain ⟨shim, hm, rfl⟩ := Option.map_eq_some_iff.mp h
      exact .shim hf hm
    · cases h
  | begin o =>
    simp only [move?] at h
    split at h
    · rename_i hd
      cases h
      obtain ⟨hd, hb⟩ := Bool.and_eq_true_iff.mp hd
      exact .begin hd (by simpa using hb)
    · cases h
  | reply i answer =>
    obtain ⟨e, hi, h⟩ := Option.bind_eq_some_iff.mp h
    unfold replied? at h
    split at h
    · rename_i q next hl
      cases h
      exact .reply hi hl (answer q)
    · cases h
  | tell i =>
    obtain ⟨e, hi, h⟩ := Option.bind_eq_some_iff.mp h
    unfold told? at h
    split at h
    · cases h
    · rename_i ho
      split at h
      · rename_i a hl
        obtain ⟨shim, hm, rfl⟩ := Option.map_eq_some_iff.mp h
        have hn : s.notes (.tell i) = s.shim.notes (e.order.told a) := by
          simp only [notes, shim?, hi, Option.bind_some, hl, Option.elim_some]
        exact hn ▸ .tell hi (by simpa using ho) hl hm
      · cases h

theorem Goes.served {s t : Rig α} {notes : List Pods.Note} (h : s.Goes notes t) :
    ∃ ms, Shim.Run s.shim ms notes t.shim := by
  cases h with
  | shim hf h => exact ⟨_, Shim.Run.rest.move _ h⟩
  | tell hi ho hl h => exact ⟨_, Shim.Run.rest.move _ h⟩
  | _ => exact ⟨[], .rest⟩

theorem Goes.pods {s t : Rig α} {notes : List Pods.Note} (h : s.Goes notes t) :
    Pods.Run s.shim.pods notes t.shim.pods := by
  obtain ⟨ms, hrun⟩ := h.served
  exact hrun.pods

theorem Goes.call_kept {s t : Rig α} {notes : List Pods.Note} (h : s.Goes notes t) {n : Nat} {c : Pods.Call}
    {p : Pods.Point c} (hp : s.shim.pods.calls[n]? = some ⟨c, p⟩) :
    ∃ p' : Pods.Point c, t.shim.pods.calls[n]? = some ⟨c, p'⟩ := by
  cases h with
  | shim hf h => exact (Shim.goes_of_move h).call_kept hp
  | tell hi ho hl h => exact (Shim.goes_of_move h).call_kept hp
  | _ => exact ⟨p, hp⟩

/-- Work is under way for what it was begun for, or is begun. -/
theorem Goes.ordered {s t : Rig α} {notes : List Pods.Note} (h : s.Goes notes t) {e : Errand} (he : e ∈ t.errands) :
    (∃ e₀ ∈ s.errands, e₀.order = e.order) ∨ s.due e.order = true ∧ t.shim = s.shim := by
  have replaced {i : Nat} {old : Errand} (new : Errand) (hi : s.errands[i]? = some old) (horder : old.order = new.order)
      (he : e ∈ s.errands.set i new) : ∃ e₀ ∈ s.errands, e₀.order = e.order := by
    obtain he | rfl := List.mem_or_eq_of_mem_set he
    · exact ⟨e, he, rfl⟩
    · exact ⟨old, List.mem_of_getElem? hi, horder⟩
  cases h with
  | shim hf h => exact .inl ⟨e, he, rfl⟩
  | begin hd hb =>
    obtain he | he := List.mem_append.mp he
    · exact .inl ⟨e, he, rfl⟩
    · obtain rfl := List.mem_singleton.mp he
      exact .inr ⟨hd, rfl⟩
  | @reply i old q next hi hl reply => exact .inl (replaced (old.replied q reply next) hi rfl he)
  | @tell i old a shim hi ho hl h => exact .inl (replaced { old with told := true } hi rfl he)

/-! ### Runs -/

/-- A run from one state to another, and the notes of the pods. -/
inductive Run (s : Rig α) : List Pods.Note → Rig α → Prop
  | rest : Run s [] s
  | move {log : List Pods.Note} {t u : Rig α} (h : Run s log t) (m : Move α) (hm : t.move? m = some u) :
      Run s (log ++ t.notes m) u

variable {s t u : Rig α} {log more : List Pods.Note}

theorem Run.trans (h : Run s log t) (h' : Run t more u) : Run s (log ++ more) u := by
  induction h' with
  | rest =>
    rw [List.append_nil]
    exact h
  | move _ m hm ih =>
    rw [← List.append_assoc]
    exact ih.move m hm

/-- What holds at the start of a run and is kept by every move holds at its end. -/
theorem Run.induct {P : List Pods.Note → Rig α → Prop} (rest : P [] s)
    (step : ∀ {log notes t u}, Run s log t → P log t → t.Goes notes u → P (log ++ notes) u) (h : Run s log t) :
    P log t := by
  induction h with
  | rest => exact rest
  | move h m hm ih => exact step h ih (goes_of_move hm)

theorem Run.shim (h : Run s log t) : ∃ ms, Shim.Run s.shim ms log t.shim := by
  refine Run.induct (P := fun log t => ∃ ms, Shim.Run s.shim ms log t.shim) ⟨[], .rest⟩ ?_ h
  rintro log notes t u - ⟨ms, ih⟩ hg
  obtain ⟨more, hmore⟩ := hg.served
  exact ⟨_, ih.trans hmore⟩

theorem Run.pods (h : Run s log t) : Pods.Run s.shim.pods log t.shim.pods := by
  obtain ⟨ms, hrun⟩ := h.shim
  exact hrun.pods

theorem Run.call_kept (h : Run s log t) {n : Nat} {c : Pods.Call} {p : Pods.Point c}
    (hp : s.shim.pods.calls[n]? = some ⟨c, p⟩) : ∃ p' : Pods.Point c, t.shim.pods.calls[n]? = some ⟨c, p'⟩ := by
  refine Run.induct (P := fun _ (t : Rig α) => ∃ p' : Pods.Point c, t.shim.pods.calls[n]? = some ⟨c, p'⟩) ⟨p, hp⟩ ?_ h
  rintro log notes t u - ⟨p', hp'⟩ hg
  exact hg.call_kept hp'

theorem Run.same (h : Run s log t) : t.backend = s.backend ∧ t.connector = s.connector := by
  refine Run.induct (P := fun _ t => t.backend = s.backend ∧ t.connector = s.connector) ⟨rfl, rfl⟩ ?_ h
  intro log notes t u _ ih hg
  cases hg <;> exact ih

/-! ### Runs move by move -/

/-- The notes and the end of a run that makes the given moves, if they can be made. -/
def follow (s : Rig α) : List (Move α) → Option (List Pods.Note × Rig α)
  | [] => some ([], s)
  | m :: ms => (s.move? m).bind fun t => (t.follow ms).map fun (log, u) => (s.notes m ++ log, u)

theorem run_of_follow {ms : List (Move α)} (h : s.follow ms = some (log, t)) : Run s log t := by
  induction ms generalizing s log with
  | nil =>
    cases h
    exact .rest
  | cons m ms ih =>
    obtain ⟨u, hu, h⟩ := Option.bind_eq_some_iff.mp h
    obtain ⟨⟨rest, v⟩, hf, heq⟩ := Option.map_eq_some_iff.mp h
    cases heq
    exact (Run.rest.move m hu).trans (ih hf)

/-- The notes and the end of a run that can be made, else of none. -/
def played (s : Rig α) (ms : List (Move α)) : List Pods.Note × Rig α :=
  (s.follow ms).getD ([], s)

theorem run_played {ms : List (Move α)} (h : (s.follow ms).isSome = true) : Run s (s.played ms).1 (s.played ms).2 := by
  obtain ⟨x, h⟩ := Option.isSome_iff_exists.mp h
  rw [played, h]
  exact run_of_follow h

/-! ### What is worked on -/

/-- A strand's work is under way while the strand asks for what it is done for; no two are done for the same. -/
structure Tended (s : Rig α) : Prop where
  asks : ∀ {i : Nat} {e : Errand} {me : Pods.Strand} {request : Pods.Request}, s.errands[i]? = some e →
    e.told = false → e.order = .strand me request → s.shim.pods.Asks me request
  apart : ∀ {i k : Nat} {e e' : Errand}, s.errands[i]? = some e → s.errands[k]? = some e' → e.told = false →
    e'.told = false → e.order.giver = e'.order.giver → i = k

theorem asks_of_due {me : Pods.Strand} {request : Pods.Request} (h : s.due (.strand me request) = true) :
    s.shim.pods.Asks me request := by
  obtain ⟨hr, hp⟩ := Bool.and_eq_true_iff.mp h
  exact ⟨of_decide_eq_true hr, of_decide_eq_true hp⟩

/-- A strand goes on asking while the service makes a move that is no answer to it. -/
theorem asks_of_move {shim : Shim α} {m : Shim.Move α} (h : s.shim.move? m = some shim) {me : Pods.Strand}
    {request : Pods.Request} (hme : s.shim.pods.Asks me request)
    (hans : ∀ {you : Pods.Strand} {other : Pods.Request} {a : other.Answer}, m = .pods (.answer you other a) →
      you ≠ me ∧ you.part < s.shim.pods.strandCount you.call) : shim.pods.Asks me request := by
  obtain hpods | ⟨pm, hpm, hm⟩ := (Shim.goes_of_move h).pods_eq
  · exact hpods ▸ hme
  · refine hme.move hpm fun heq => ?_
    obtain rfl | hnone := hm
    · exact hans (congrArg _ heq)
    · rw [heq] at hnone
      cases hnone

/-- Errands of which one was replaced by one for the same, which may be over now. -/
theorem of_replaced {errands : List Errand} {i : Nat} {e : Errand} (e' : Errand) (hi : errands[i]? = some e)
    (horder : e'.order = e.order) (hopen : e'.told = false → e.told = false) {k : Nat} {y : Errand}
    (hk : (errands.set i e')[k]? = some y) :
    ∃ y₀, errands[k]? = some y₀ ∧ y.order = y₀.order ∧ (y.told = false → y₀.told = false) := by
  obtain ⟨rfl, rfl⟩ | ⟨-, hk⟩ := Pods.of_getElem?_set hk
  · exact ⟨e, hi, horder, hopen⟩
  · exact ⟨y, hk, rfl, id⟩

theorem Tended.goes {notes : List Pods.Note} (h : s.Tended) (hg : s.Goes notes t) : t.Tended := by
  cases hg with
  | @shim m shim hf hm =>
    refine ⟨fun hi ho horder => asks_of_move hm (h.asks hi ho horder) ?_, h.apart⟩
    intro you other a heq
    subst heq
    cases hf
  | @begin o hd hb =>
    have idle {i : Nat} {e : Errand} (hi : s.errands[i]? = some e) (ho : e.told = false) : e.order.giver ≠ o.giver :=
      busy_eq_false.mp hb e (List.mem_of_getElem? hi) ho
    refine ⟨fun {i e me request} hi ho horder => ?_, fun {i k e e'} hi hk ho ho' hgiver => ?_⟩
    · obtain hi | ⟨-, rfl⟩ := Pods.of_getElem?_concat hi
      · exact h.asks hi ho horder
      · cases horder
        exact asks_of_due hd
    · obtain hi | ⟨hi', rfl⟩ := Pods.of_getElem?_concat hi
      · obtain hk | ⟨-, rfl⟩ := Pods.of_getElem?_concat hk
        · exact h.apart hi hk ho ho' hgiver
        · exact absurd hgiver (idle hi ho)
      · obtain hk | ⟨hk', rfl⟩ := Pods.of_getElem?_concat hk
        · exact absurd hgiver.symm (idle hk ho')
        · exact hi'.trans hk'.symm
  | @reply i e q next hi hl reply =>
    have old {k : Nat} {y : Errand} (hk : (s.errands.set i (e.replied q reply next))[k]? = some y) :=
      of_replaced (e.replied q reply next) hi rfl id hk
    refine ⟨fun hk ho horder => ?_, fun hk hk' ho ho' hgiver => ?_⟩
    · obtain ⟨y, hy, heq, hopen⟩ := old hk
      exact h.asks hy (hopen ho) (heq ▸ horder)
    · obtain ⟨y, hy, heq, hopen⟩ := old hk
      obtain ⟨y', hy', heq', hopen'⟩ := old hk'
      exact h.apart hy hy' (hopen ho) (hopen' ho') (by rw [← heq, ← heq']; exact hgiver)
  | @tell i e a shim hi huntold hl hm =>
    have old {k : Nat} {y : Errand} (hk : (s.errands.set i { e with told := true })[k]? = some y) :=
      of_replaced { e with told := true } hi rfl nofun hk
    refine ⟨fun {k y me request} hk ho horder => ?_, fun hk hk' ho ho' hgiver => ?_⟩
    · obtain ⟨y₀, hy, heq, hopen⟩ := old hk
      refine asks_of_move hm (h.asks hy (hopen ho) (heq ▸ horder)) fun {you other b} htold => ?_
      -- The answer is the one of another strand's work.
      have hyours := Order.of_told htold
      refine ⟨?_, (h.asks hi huntold hyours).2⟩
      rintro rfl
      obtain rfl := h.apart hi hy huntold (hopen ho) (by rw [hyours, ← heq, horder]; rfl)
      obtain ⟨-, rfl⟩ | ⟨hne, -⟩ := Pods.of_getElem?_set hk
      · cases ho
      · exact hne rfl
    · obtain ⟨y, hy, heq, hopen⟩ := old hk
      obtain ⟨y', hy', heq', hopen'⟩ := old hk'
      exact h.apart hy hy' (hopen ho) (hopen' ho') (by rw [← heq, ← heq']; exact hgiver)

theorem Run.tended (h : Run s log t) (hs : s.errands = []) : t.Tended := by
  refine Run.induct (P := fun _ t => t.Tended) ⟨fun hi => ?_, fun hi => ?_⟩ (fun _ ih hg => ih.goes hg) h
  · rw [hs] at hi
    cases hi
  · rw [hs] at hi
    cases hi

end Rig
end PodMachines
