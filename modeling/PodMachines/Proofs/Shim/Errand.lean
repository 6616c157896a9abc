import PodMachines.Proofs.Backend.Tooled
import PodMachines.Proofs.Pods.Ending
import PodMachines.Proofs.Shim.Rig

/-! What the work that is done for the service has made and may end. Main statements: work ends no machine but one that
    it has made and fails with, or the one that it is to end; what creates are given are machines that work has made,
    each once. -/

namespace PodMachines
open Service

namespace Rig

section
variable {α : Type} {s : Rig α} {errands : List Errand} {e e' : Errand} {i : Nat}

theorem mem_set_of_ne (hi : errands[i]? = some e) {x : Errand} (hx : x ∈ errands) (hne : e ≠ x) :
    x ∈ errands.set i e' := by
  obtain ⟨k, hk⟩ := List.getElem?_of_mem hx
  refine List.mem_of_getElem? ((List.getElem?_set_ne ?_).trans hk)
  rintro rfl
  exact hne (Option.some.inj (hi.symm.trans hk))

theorem mem_set_of_told (hi : errands[i]? = some e) (ho : e.told = false) {x : Errand} (hx : x ∈ errands)
    (htold : x.told = true) : x ∈ errands.set i e' := by
  refine mem_set_of_ne hi hx ?_
  rintro rfl
  cases ho.symm.trans htold

theorem given?_eq_nil {notes : List Pods.Note} (h : ∀ n ∈ notes, n.deed.machine? = none) :
    notes.filterMap Pods.Note.given? = [] :=
  List.filterMap_eq_nil_iff.mpr fun n hn => by rw [Pods.Note.given?, h n hn]; rfl

theorem machine?_of_move {shim : Shim α} {m : Shim.Move α} (h : s.shim.move? m = some shim) :
    (∀ n ∈ s.shim.notes m, n.deed.machine? = none) ∨ ∃ me vm machine time i,
      m = .pods (.answer me (.backend (.provision vm)) (.ok machine)) ∧
        s.shim.notes m = [⟨time, me, i, .hears (.backend (.provision vm)) (.ok machine)⟩,
          ⟨time, me, i, .asks (.backend (.addresses machine))⟩] := by
  cases m with
  | pods pm =>
    obtain ⟨pods, hm, -⟩ := Option.map_eq_some_iff.mp h
    obtain hnone | ⟨me, vm, machine, time, i, rfl, hns⟩ := Pods.System.machine?_of_move hm
    · exact .inl hnone
    · exact .inr ⟨me, vm, machine, time, i, rfl, hns⟩
  | _ => exact .inl fun n hn => absurd hn List.not_mem_nil

theorem images_of_move {shim : Shim α} {m : Shim.Move α} (h : s.shim.move? m = some shim)
    (hi : ∀ images, s.shim.images = some images → images.Spares) :
    ∀ images, shim.images = some images → images.Spares := by
  cases Shim.goes_of_move h with
  | @own n job act next reply t hj hl ho =>
    intro images himages
    have himages : t.images = some images := himages
    cases act with
    | keep reference found =>
      simp only [Shim.own] at ho
      cases hold : s.shim.images with
      | none =>
        rw [hold] at ho
        cases ho
        exact hi images himages
      | some old =>
        rw [hold] at ho
        cases ho
        cases himages
        intro r
        rw [Images.find_pulled]
        exact hi old hold r
    | forget reference =>
      cases ho
      obtain ⟨old, hold, rfl⟩ := Option.map_eq_some_iff.mp himages
      intro r
      rw [Images.find_forget]
      exact hi old hold r
    | bootImages | images | inquire filter ids =>
      cases ho
      exact hi images himages
    | await inquiries =>
      obtain ⟨rfl, -⟩ := Shim.own_await ho
      exact hi images himages
    | _ => cases ho
  | @hear n word job act next reply hj hl hw =>
    have hsame : (s.shim.closing act).images = s.shim.images := by cases act <;> rfl
    intro images himages
    exact hi images (hsame.symm.trans himages)
  | _ => exact hi

end

variable [Doc.Parsers]

/-- Work that makes a machine is tidy, work that ends one ends no other, and other work ends none. -/
def Errand.Sound (b : Tooled) : Errand → Prop
  | ⟨.strand _ (.backend (.provision _)), talk, left, _⟩ => Tidy b (b.obtained talk) left
  | ⟨.strand _ (.backend (.destroy machine)), _, left, _⟩ => left.Uses (Ask.SparesBut b machine.id)
  | ⟨_, _, left, _⟩ => left.Uses Ask.Spares

/-- The ids of the machines that were made. -/
def obtained (b : Tooled) (errands : List Errand) : List String :=
  errands.flatMap fun e => b.obtained e.talk

/-- The ids of the machines that were made by work which is over. -/
def settled (b : Tooled) (errands : List Errand) : List String :=
  obtained b (errands.filter (·.told))

section
variable {b : Tooled} {errands : List Errand} {e e' : Errand} {i : Nat}

theorem Errand.Sound.replied {q : Ask} {next : q.Reply → Work e.order.Answer} (h : e.Sound b)
    (hl : e.left = Program.ask q next) (reply : q.Reply) : (e.replied q reply next).Sound b := by
  have led (order : Order) (talk : Program.Talk Ask Ask.Reply) (told : Bool) (next : q.Reply → Work order.Answer)
      (h : Errand.Sound b ⟨order, talk, Program.ask q next, told⟩) :
      Errand.Sound b ⟨order, talk ++ [⟨q, reply⟩], next reply, told⟩ := by
    cases order with
    | search n reference => exact h.2 reply
    | strand me request =>
      cases request with
      | backend request =>
        cases request with
        | provision spec =>
          show Tidy b (b.obtained (talk ++ [⟨q, reply⟩])) (next reply)
          rw [Tooled.obtained_append]
          exact Tidy.led (.reply reply .rest) h
        | _ => exact h.2 reply
      | _ => exact h.2 reply
  refine led e.order e.talk e.told next ?_
  rw [← hl]
  exact h

theorem Errand.Sound.told (h : e.Sound b) : Errand.Sound b { e with told := true } := by
  have done (order : Order) (talk : Program.Talk Ask Ask.Reply) (left : Work order.Answer) (told : Bool)
      (h : Errand.Sound b ⟨order, talk, left, told⟩) : Errand.Sound b ⟨order, talk, left, true⟩ := by
    cases order with
    | search n reference => exact h
    | strand me request =>
      cases request with
      | backend request => cases request <;> exact h
      | _ => exact h
  exact done e.order e.talk e.left e.told h

theorem Errand.Sound.of_told {α : Type} {a : e.order.Answer} (h : e.Sound b) (hl : e.left = Program.done a)
    {me : Pods.Strand} {vm : Machine.Spec} {machine : Machine.Handle}
    (ht : (e.order.told a : Shim.Move α) = .pods (.answer me (.backend (.provision vm)) (.ok machine))) :
    e.order = .strand me (.backend (.provision vm)) ∧ b.obtained e.talk = [machine.id] := by
  have given (order : Order) (talk : Program.Talk Ask Ask.Reply) (told : Bool) (a : order.Answer)
      (h : Errand.Sound b ⟨order, talk, Program.done a, told⟩)
      (ht : (order.told a : Shim.Move α) = .pods (.answer me (.backend (.provision vm)) (.ok machine))) :
      order = .strand me (.backend (.provision vm)) ∧ b.obtained talk = [machine.id] := by
    cases order with
    | search n reference => cases ht
    | strand you request =>
      cases ht
      exact ⟨rfl, h⟩
  refine given e.order e.talk e.told a ?_ ht
  rw [← hl]
  exact h

theorem sound_work {α : Type} {s : Rig α} (hb : s.backend = b.backend)
    (hi : ∀ images, s.shim.images = some images → images.Spares) (o : Order) :
    Errand.Sound b ⟨o, [], s.work o, false⟩ := by
  have serves (request : Backend.Request) (me : Pods.Strand) :
      s.work (.strand me (.backend request)) = b.backend.serve request := by
    rw [work, hb]
  cases o with
  | search n reference =>
    show Program.Uses _ (work s (.search n reference))
    unfold work
    cases himages : s.shim.images with
    | none => trivial
    | some images => exact hi images himages reference
  | strand me request =>
    cases request with
    | connect address => exact s.connector.connect_spares address
    | close connection => exact ⟨nofun, fun _ => trivial⟩
    | backend request =>
      rw [serves]
      cases request with
      | provision spec => exact b.provision_tidy spec
      | destroy machine => exact b.destroy_spares machine
      | addresses machine => exact b.addresses_spares machine
      | state machine => exact b.state_spares machine

theorem settled_cons (b : Tooled) (e : Errand) (errands : List Errand) :
    settled b (e :: errands) = (if e.told then b.obtained e.talk else []) ++ settled b errands := by
  unfold settled obtained
  rw [List.filter_cons]
  cases e.told <;> rfl

theorem count_settled_set (hi : errands[i]? = some e) (ho : e.told = false) (id : String) :
    (settled b (errands.set i e')).count id =
      (settled b errands).count id + (if e'.told then b.obtained e'.talk else []).count id := by
  induction errands generalizing i with
  | nil => cases hi
  | cons x errands ih =>
    cases i with
    | zero =>
      cases hi
      rw [List.set_cons_zero, settled_cons, settled_cons, ho, List.count_append, Nat.add_comm]
      rfl
    | succ i =>
      rw [List.set_cons_succ, settled_cons, settled_cons, List.count_append, List.count_append, ih hi, Nat.add_assoc]

theorem settled_sublist (b : Tooled) (errands : List Errand) : (settled b errands).Sublist (obtained b errands) := by
  induction errands with
  | nil => exact .slnil
  | cons e errands ih =>
    rw [settled_cons]
    show List.Sublist (_ ++ _) (b.obtained e.talk ++ obtained b errands)
    cases e.told with
    | true => exact (List.Sublist.refl _).append ih
    | false => exact ih.trans (List.sublist_append_right _ _)

theorem settled_concat (errands : List Errand) (ho : e.told = false) :
    settled b (errands ++ [e]) = settled b errands := by
  rw [settled, List.filter_append, List.filter_cons_of_neg (by rw [ho]; exact Bool.false_ne_true), List.filter_nil,
    List.append_nil, ← settled]

theorem mem_obtained {id : String} : id ∈ obtained b errands ↔ ∃ e ∈ errands, id ∈ b.obtained e.talk :=
  List.mem_flatMap

end

section
variable {α : Type} {b : Tooled} {first s t : Rig α} {log notes : List Pods.Note}

/-- What the work that was done has made, and what of it creates were given. -/
structure Accounted (b : Tooled) (log : List Pods.Note) (s : Rig α) : Prop where
  sound : ∀ e ∈ s.errands, e.Sound b
  ended : ∀ e ∈ s.errands, e.told = true → ∃ a, e.left = Program.done a
  images : ∀ images, s.shim.images = some images → images.Spares
  given : ∀ n ∈ log, ∀ vm machine, n.deed = .hears (.backend (.provision vm)) (.ok machine) →
    ∃ e ∈ s.errands, e.told = true ∧ e.order = .strand n.strand (.backend (.provision vm)) ∧
      b.obtained e.talk = [machine.id]
  once : ∀ id, (log.filterMap Pods.Note.given?).count id ≤ (settled b s.errands).count id

theorem Accounted.quiet {u : Rig α} (h : Accounted b log s) (hn : ∀ n ∈ notes, n.deed.machine? = none)
    (hsound : ∀ e ∈ u.errands, e.Sound b) (hended : ∀ e ∈ u.errands, e.told = true → ∃ a, e.left = Program.done a)
    (himages : ∀ images, u.shim.images = some images → images.Spares)
    (hkept : ∀ e ∈ s.errands, e.told = true → e ∈ u.errands)
    (honce : ∀ id, (settled b s.errands).count id ≤ (settled b u.errands).count id) : Accounted b (log ++ notes) u where
  sound := hsound
  ended := hended
  images := himages
  given := by
    intro n hmem vm machine hd
    obtain hmem | hmem := List.mem_append.mp hmem
    · obtain ⟨e, he, ho, horder, hgot⟩ := h.given n hmem vm machine hd
      exact ⟨e, hkept e he ho, ho, horder, hgot⟩
    · have hnone := hn n hmem
      rw [hd] at hnone
      cases hnone
  once := by
    intro id
    rw [List.filterMap_append, given?_eq_nil hn, List.append_nil]
    exact Nat.le_trans (h.once id) (honce id)

theorem Accounted.goes (h : Accounted b log s) (hb : s.backend = b.backend) (hg : s.Goes notes t) :
    Accounted b (log ++ notes) t := by
  cases hg with
  | @shim m shim hf hm =>
    obtain hnone | ⟨me, vm, machine, time, i, rfl, -⟩ := machine?_of_move hm
    · exact h.quiet hnone h.sound h.ended (images_of_move hm h.images) (fun e he _ => he) fun _ => Nat.le_refl _
    · cases hf
  | @begin o hd hbusy =>
    refine h.quiet (fun n hn => absurd hn List.not_mem_nil) ?_ ?_ h.images (fun e he _ => List.mem_append_left _ he) ?_
    · intro e he
      obtain he | he := List.mem_append.mp he
      · exact h.sound e he
      · obtain rfl := List.mem_singleton.mp he
        exact sound_work hb h.images o
    · intro e he ho
      obtain he | he := List.mem_append.mp he
      · exact h.ended e he ho
      · obtain rfl := List.mem_singleton.mp he
        cases ho
    · exact fun id => Nat.le_of_eq (congrArg (List.count id) (settled_concat _ rfl).symm)
  | @reply i e q next hi hl reply =>
    have hopen : e.told = false := by
      cases ho : e.told with
      | false => rfl
      | true =>
        obtain ⟨a, ha⟩ := h.ended e (List.mem_of_getElem? hi) ho
        cases hl.symm.trans ha
    refine h.quiet (fun n hn => absurd hn List.not_mem_nil) ?_ ?_ h.images ?_ ?_
    · intro x hx
      obtain ⟨k, hk⟩ := List.getElem?_of_mem hx
      obtain ⟨-, rfl⟩ | ⟨-, hk⟩ := Pods.of_getElem?_set hk
      · exact (h.sound e (List.mem_of_getElem? hi)).replied hl reply
      · exact h.sound x (List.mem_of_getElem? hk)
    · intro x hx ho
      obtain ⟨k, hk⟩ := List.getElem?_of_mem hx
      obtain ⟨-, rfl⟩ | ⟨-, hk⟩ := Pods.of_getElem?_set hk
      · cases hopen.symm.trans ho
      · exact h.ended x (List.mem_of_getElem? hk) ho
    · exact fun x hx ho => mem_set_of_told hi hopen hx ho
    · intro id
      rw [count_settled_set hi hopen]
      exact Nat.le_add_right _ _
  | @tell i e a shim hi huntold hl hm =>
    have hsound : ∀ x ∈ s.errands.set i { e with told := true }, x.Sound b := by
      intro x hx
      obtain ⟨k, hk⟩ := List.getElem?_of_mem hx
      obtain ⟨-, rfl⟩ | ⟨-, hk⟩ := Pods.of_getElem?_set hk
      · exact (h.sound e (List.mem_of_getElem? hi)).told
      · exact h.sound x (List.mem_of_getElem? hk)
    have hended : ∀ x ∈ s.errands.set i { e with told := true }, x.told = true → ∃ a, x.left = Program.done a := by
      intro x hx ho
      obtain ⟨k, hk⟩ := List.getElem?_of_mem hx
      obtain ⟨-, rfl⟩ | ⟨-, hk⟩ := Pods.of_getElem?_set hk
      · exact ⟨a, hl⟩
      · exact h.ended x (List.mem_of_getElem? hk) ho
    have hkept {x : Errand} (hx : x ∈ s.errands) (ho : x.told = true) : x ∈ s.errands.set i { e with told := true } :=
      mem_set_of_told hi huntold hx ho
    obtain hnone | ⟨me, vm, machine, time, k, htold, hns⟩ := machine?_of_move hm
    · refine h.quiet hnone hsound hended (images_of_move hm h.images) (fun x hx ho => hkept hx ho) fun id => ?_
      rw [count_settled_set hi huntold]
      exact Nat.le_add_right _ _
    · obtain ⟨horder, hgot⟩ := (h.sound e (List.mem_of_getElem? hi)).of_told hl htold
      refine ⟨hsound, hended, images_of_move hm h.images, fun n hn vm' machine' hd => ?_, fun id => ?_⟩
      · obtain hn | hn := List.mem_append.mp hn
        · obtain ⟨x, hx, ho, hx'⟩ := h.given n hn vm' machine' hd
          exact ⟨x, hkept hx ho, ho, hx'⟩
        · rw [hns] at hn
          obtain rfl | hn := List.mem_cons.mp hn
          · cases hd
            have hi' := (List.getElem?_eq_some_iff.mp hi).1
            exact ⟨_, List.mem_of_getElem? (List.getElem?_set_self hi'), rfl, horder, hgot⟩
          · obtain rfl := List.mem_singleton.mp hn
            cases hd
      · have hnew : (s.shim.notes (e.order.told a)).filterMap Pods.Note.given? = [machine.id] := by
          rw [hns]
          rfl
        rw [List.filterMap_append, hnew, List.count_append, count_settled_set hi huntold]
        exact Nat.add_le_add (h.once id) (Nat.le_of_eq (by rw [← hgot]; rfl))

theorem Run.accounted (h : Run first log t) (hb : first.backend = b.backend) (he : first.errands = [])
    (hi : ∀ images, first.shim.images = some images → images.Spares) : Accounted b log t := by
  refine Run.induct (P := fun log t => Accounted b log t) ?_ (fun hrun ih hg => ?_) h
  · refine ⟨fun e hmem => ?_, fun e hmem => ?_, hi, fun n hn => absurd hn List.not_mem_nil, fun id => Nat.zero_le _⟩
    · rw [he] at hmem
      cases hmem
    · rw [he] at hmem
      cases hmem
  · exact ih.goes (hrun.same.1.trans hb) hg

/-- Where no two machines are made with one id, no machine is given with the id of an earlier one. -/
theorem Accounted.fresh (h : Accounted b log s) (hn : (obtained b s.errands).Nodup) : Pods.Fresh log := by
  refine List.nodup_iff_count.mpr fun id => ?_
  calc (log.filterMap Pods.Note.given?).count id
      ≤ (settled b s.errands).count id := h.once id
    _ ≤ (obtained b s.errands).count id := (settled_sublist b s.errands).count_le id
    _ ≤ 1 := List.nodup_iff_count.mp hn id

end

end Rig
end PodMachines
