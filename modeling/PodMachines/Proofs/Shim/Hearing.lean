import Mathlib.Data.List.Forall2
import PodMachines.Proofs.Pods.Account
import PodMachines.Proofs.Shim.Rig

/-! What strands are told of the work that is done for them. Main statement: a strand has heard, in order, what the work
    that was begun for it has come to, and of that work at most the last is not over. -/

namespace PodMachines
open Service

namespace Pods

/-- An answer, and what it answers. -/
abbrev Answered : Type := (request : Request) × request.Answer

def Deed.heard? : Deed → Option Answered
  | .hears request a => some ⟨request, a⟩
  | _ => none

/-- What a strand has heard, in order. -/
def heard (me : Strand) (log : List Note) : List Answered :=
  log.filterMap fun e => if e.strand = me then e.deed.heard? else none

@[simp] theorem heard_nil (me : Strand) : heard me [] = [] := rfl

@[simp] theorem heard_append (me : Strand) (log more : List Note) :
    heard me (log ++ more) = heard me log ++ heard me more :=
  List.filterMap_append

theorem heard_notes {c : Call} (time : Nat) (you me : Strand) (p q : Point c) (ds : List Deed) :
    heard me (Point.notes time you p q ds) = if you = me then ds.filterMap Deed.heard? else [] := by
  rw [heard, Point.notes, List.filterMap_map]
  by_cases h : you = me
  · simp only [h, if_true, Function.comp_def]
  · simp only [h, if_false, Function.comp_def]
    exact List.filterMap_eq_nil_iff.mpr fun _ _ => rfl

theorem Point.heard?_deeds {c : Call} (me : Strand) (p : Point c) (next : Point c × Store)
    (report : Option (Option Sandbox.Status)) : (p.deeds me next report).filterMap Deed.heard? = [] := by
  refine List.filterMap_eq_nil_iff.mpr fun d hd => ?_
  simp only [deeds, List.mem_append] at hd
  obtain ((hd | hd) | hd) | hd := hd
  · split at hd
    · obtain rfl := List.mem_singleton.mp hd
      rfl
    · cases hd
  · obtain ⟨request, -, rfl⟩ := Option.map_eq_some_iff.mp (Option.mem_toList.mp hd)
    rfl
  · obtain ⟨status, -, rfl⟩ := Option.map_eq_some_iff.mp (Option.mem_toList.mp hd)
    rfl
  · cases hq : next.1 <;> rw [hq] at hd <;> simp only [ending, List.not_mem_nil, List.mem_singleton] at hd
    rw [hd]
    rfl

namespace System

theorem heard_of_advance (s : System) (me you : Strand) : heard me (s.notes (.advance you)) = [] := by
  simp only [notes]
  split
  · simp only [Point.advanceNotes]
    split
    · rw [heard_notes, Point.heard?_deeds]
      exact ite_self _
    · rfl
  · rfl

theorem heard_of_answer {s t : System} {you : Strand} {request : Request} {a : request.Answer}
    (h : s.answer you request a = some t) (me : Strand) :
    heard me (s.notes (.answer you request a)) = if you = me then [⟨request, a⟩] else [] := by
  unfold answer at h
  split at h
  · split at h
    · rename_i p hp
      obtain ⟨next, hnext, -⟩ := Option.map_eq_some_iff.mp h
      simp only [notes, hp, Point.answerNotes, hnext, heard_notes, List.filterMap_cons, Deed.heard?,
        Point.heard?_deeds]
    · cases h
  · cases h

end System
end Pods

namespace Rig
variable {α : Type} {first s t : Rig α} {me : Pods.Strand} {log notes : List Pods.Note}

/-- The work that was begun for a strand, in order. -/
def mine (me : Pods.Strand) (errands : List Errand) : List Errand :=
  errands.filter (·.order.giver = .inl me)

/-- Work that is over, and what the strand has heard of it. -/
def Errand.Came (s : Rig α) (me : Pods.Strand) (e : Errand) (x : Pods.Answered) : Prop :=
  ∃ talk, e = ⟨.strand me x.1, talk, .done x.2, true⟩ ∧ (s.work (.strand me x.1)).Leads talk (.done x.2)

/-- Work for a strand, and what it has heard. -/
inductive Attended (s : Rig α) (me : Pods.Strand) :
    List Errand → List Pods.Answered → Prop
  | idle {errands : List Errand} {told : List Pods.Answered}
      (h : List.Forall₂ (Errand.Came s me) errands told) : Attended s me errands told
  | busy {errands : List Errand} {told : List Pods.Answered} {request : Pods.Request}
      {talk : Program.Talk Ask Ask.Reply} {left : Work request.Answer}
      (h : List.Forall₂ (Errand.Came s me) errands told) (hl : (s.work (.strand me request)).Leads talk left) :
      Attended s me (errands ++ [⟨.strand me request, talk, left, false⟩]) told

theorem work_strand (h : t.backend = s.backend ∧ t.connector = s.connector) (me : Pods.Strand)
    (request : Pods.Request) : t.work (.strand me request) = s.work (.strand me request) := by
  cases request with
  | backend request => rw [work, work, h.1]
  | connect address => rw [work, work, h.2]
  | close connection => rfl

theorem mine_append (me : Pods.Strand) (errands more : List Errand) :
    mine me (errands ++ more) = mine me errands ++ mine me more :=
  List.filter_append ..

theorem mine_set_of_ne {errands : List Errand} {i : Nat} {e : Errand} (e' : Errand) (hi : errands[i]? = some e)
    (h : e.order.giver ≠ .inl me) (h' : e'.order = e.order) : mine me (errands.set i e') = mine me errands := by
  induction errands generalizing i with
  | nil => cases hi
  | cons x errands ih =>
    cases i with
    | zero =>
      cases hi
      simp only [mine, List.set_cons_zero, List.filter_cons, h', h, decide_false, Bool.false_eq_true, if_false]
    | succ i =>
      have ih := ih hi
      simp only [mine] at ih
      simp only [mine, List.set_cons_succ, List.filter_cons, ih]

theorem Errand.not_came_of_untold {e : Errand} (h : e.told = false) (x : Pods.Answered) : ¬e.Came s me x := by
  rintro ⟨talk, rfl, -⟩
  cases h

theorem Errand.not_came_of_left {e : Errand} (h : ∀ a, e.left ≠ Program.done a) (x : Pods.Answered) :
    ¬e.Came s me x := by
  rintro ⟨talk, rfl, -⟩
  exact h _ rfl

theorem Errand.Came.of_mem {past : List Errand} {told : List Pods.Answered}
    (h : List.Forall₂ (Errand.Came s me) past told) :
    (∀ e ∈ past, ∃ x, e.Came s me x) ∧ ∀ x ∈ told, ∃ e ∈ past, e.Came s me x := by
  induction h with
  | nil => exact ⟨nofun, nofun⟩
  | cons hx _ ih =>
    refine ⟨List.forall_mem_cons.mpr ⟨⟨_, hx⟩, ih.1⟩, List.forall_mem_cons.mpr ⟨⟨_, List.mem_cons_self, hx⟩, ?_⟩⟩
    intro x hmem
    obtain ⟨e, he, hcame⟩ := ih.2 x hmem
    exact ⟨e, List.mem_cons_of_mem _ he, hcame⟩

theorem Attended.came {errands : List Errand} {told : List Pods.Answered}
    (h : Attended s me errands told) : ∀ x ∈ told, ∃ e ∈ errands, e.Came s me x := by
  intro x hx
  cases h with
  | idle h => exact (Errand.Came.of_mem h).2 x hx
  | busy h hl =>
    obtain ⟨e, he, hcame⟩ := (Errand.Came.of_mem h).2 x hx
    exact ⟨e, List.mem_append_left _ he, hcame⟩

/-- Work for a strand that is not over is the last that was begun for it. -/
theorem Attended.last {errands : List Errand} {told : List Pods.Answered} {i : Nat}
    {e : Errand} (h : Attended s me (mine me errands) told) (hi : errands[i]? = some e)
    (hg : e.order.giver = .inl me) (hc : ∀ x, ¬e.Came s me x) :
    ∃ past request talk left, List.Forall₂ (Errand.Came s me) past told ∧
      e = ⟨.strand me request, talk, left, false⟩ ∧ (s.work (.strand me request)).Leads talk left ∧
      mine me errands = past ++ [e] ∧
      ∀ e' : Errand, e'.order.giver = .inl me → mine me (errands.set i e') = past ++ [e'] := by
  obtain ⟨hlt, hget⟩ := List.getElem?_eq_some_iff.mp hi
  have hsplit : mine me errands = mine me (errands.take i) ++ e :: mine me (errands.drop (i + 1)) := by
    conv_lhs => rw [← List.take_append_drop i errands, ← List.getElem_cons_drop hlt, hget]
    rw [mine_append]
    exact congrArg _ (List.filter_cons_of_pos (by simpa using hg))
  have hset (e' : Errand) (hg' : e'.order.giver = .inl me) :
      mine me (errands.set i e') = mine me (errands.take i) ++ e' :: mine me (errands.drop (i + 1)) := by
    rw [List.set_eq_take_append_cons_drop, if_pos hlt, mine_append]
    exact congrArg _ (List.filter_cons_of_pos (by simpa using hg'))
  have hnot {past : List Errand} (hpast : List.Forall₂ (Errand.Came s me) past told) : e ∉ past := by
    intro he
    obtain ⟨x, hx⟩ := (Errand.Came.of_mem hpast).1 e he
    exact hc x hx
  rw [hsplit] at h ⊢
  generalize heq : mine me (errands.take i) ++ e :: mine me (errands.drop (i + 1)) = all at h
  cases h with
  | idle h => exact absurd (heq ▸ List.mem_append_right _ List.mem_cons_self) (hnot h)
  | @busy past _ request talk left h hl =>
    obtain ⟨hpre, rfl, hpost⟩ := (List.append_cons_inj_of_notMem (hnot h) List.not_mem_nil).mp heq.symm
    refine ⟨past, request, talk, left, h, rfl, hl, rfl, fun e' hg' => ?_⟩
    rw [hset e' hg', ← hpre, ← hpost]

/-- What a strand hears at a move is what its work has come to. -/
theorem heard_of_free {m : Shim.Move α} (hf : free m = true) (s : Shim α) (me : Pods.Strand) :
    Pods.heard me (s.notes m) = [] := by
  cases m with
  | pods m =>
    cases m with
    | advance you => exact s.pods.heard_of_advance me you
    | answer => cases hf
    | _ => rfl
  | _ => rfl

theorem heard_of_told {o : Order} {a : o.Answer} {shim : Shim α} (h : s.shim.move? (o.told a) = some shim)
    (hg : o.giver ≠ .inl me) : Pods.heard me (s.shim.notes (o.told a)) = [] := by
  cases o with
  | search n reference => rfl
  | strand you request =>
    obtain ⟨pods, hpods, -⟩ := Option.map_eq_some_iff.mp h
    exact (Pods.System.heard_of_answer hpods me).trans (if_neg fun heq => hg (congrArg Sum.inl heq))

theorem Attended.goes (h : Attended first me (mine me s.errands) (Pods.heard me log)) (hg : s.Goes notes t)
    (hsame : s.backend = first.backend ∧ s.connector = first.connector) :
    Attended first me (mine me t.errands) (Pods.heard me (log ++ notes)) := by
  rw [Pods.heard_append]
  cases hg with
  | shim hf hm =>
    rw [heard_of_free hf, List.append_nil]
    exact h
  | @begin o hd hb =>
    rw [Pods.heard_nil, List.append_nil]
    by_cases hme : o.giver = .inl me
    · have hidle := busy_eq_false.mp hb
      cases o with
      | search n reference => cases hme
      | strand you request =>
        cases hme
        rw [mine_append]
        generalize hmine : mine me s.errands = errands at h
        cases h with
        | idle h =>
          have hnew : Attended first me (errands ++ [⟨.strand me request, [], s.work (.strand me request), false⟩])
              (Pods.heard me log) := .busy h (work_strand hsame me request ▸ .rest)
          rw [show mine me [_] = [_] from List.filter_cons_of_pos (by simp [Order.giver])]
          exact hnew
        | @busy past _ other talk left h hl =>
          have hmem : (⟨.strand me other, talk, left, false⟩ : Errand) ∈ mine me s.errands :=
            hmine ▸ List.mem_append_right _ (List.mem_singleton_self _)
          exact absurd rfl (hidle _ (List.mem_filter.mp hmem).1 rfl)
    · rw [mine_append, show mine me [_] = [] from List.filter_cons_of_neg (by simpa using hme), List.append_nil]
      exact h
  | @reply i e q next hi hl reply =>
    rw [Pods.heard_nil, List.append_nil]
    by_cases hme : e.order.giver = .inl me
    · have hopen : ∀ a, e.left ≠ Program.done a := fun a h => nomatch hl.symm.trans h
      obtain ⟨past, request, talk, left, hpast, rfl, hleads, -, hset⟩ :=
        h.last hi hme (Errand.not_came_of_left hopen)
      rw [show left = Program.ask q next from hl] at hleads
      rw [hset _ rfl]
      exact .busy hpast (hleads.snoc reply)
    · rw [mine_set_of_ne (e.replied q reply next) hi hme rfl]
      exact h
  | @tell i e a shim hi ho hl hm =>
    by_cases hme : e.order.giver = .inl me
    · obtain ⟨past, request, talk, left, hpast, rfl, hleads, -, hset⟩ := h.last hi hme (Errand.not_came_of_untold ho)
      obtain ⟨pods, hpods, -⟩ := Option.map_eq_some_iff.mp hm
      have hheard : Pods.heard me (s.shim.notes (.pods (.answer me request a))) = [⟨request, a⟩] :=
        (Pods.System.heard_of_answer hpods me).trans (if_pos rfl)
      have hnew : Errand.Came first me ⟨.strand me request, talk, left, true⟩ ⟨request, a⟩ := by
        rw [show left = Program.done a from hl] at hleads ⊢
        exact ⟨talk, rfl, hleads⟩
      have hall := Attended.idle (List.rel_append hpast (.cons hnew .nil))
      rw [← hheard] at hall
      rw [hset _ rfl]
      exact hall
    · rw [mine_set_of_ne { e with told := true } hi hme rfl, heard_of_told hm hme, List.append_nil]
      exact h

/-- A strand has heard what its work has come to, and of its work at most the last is not over. -/
theorem Run.attended (h : Run first log t) (he : first.errands = []) (me : Pods.Strand) :
    Attended first me (mine me t.errands) (Pods.heard me log) := by
  refine Run.induct (P := fun log t => Attended first me (mine me t.errands) (Pods.heard me log)) ?_ ?_ h
  · rw [he]
    exact .idle .nil
  · intro log notes s t hrun ih hg
    exact ih.goes hg hrun.same

end Rig
end PodMachines
