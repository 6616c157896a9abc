import PodMachines.Proofs.Backend.Overdue
import PodMachines.Proofs.Shim.Remaining
import PodMachines.Proofs.Shim.Teardown

/-! Which tools are called for a sandbox, from its machine to its agent. Main statement: a create calls them as its steps
    require, and one that ends has ended its machine exactly if it has got one and fails; but work that breaks down leaves
    its create without an end and the machine as it is. -/

namespace PodMachines
open Backend Program

namespace Rig

section
variable [Doc.Parsers]
variable {α : Type} {b : Tooled} {k : Agent.Connector} {now : Nat} {images : Option Images} {t : Rig α}
  {log : List Pods.Note} {n : Nat} {spec : Sandbox.Spec} {suffix : UInt32}

theorem Run.creating (h : Run (.new b.backend k now images) log t) {result : Except Failure String}
    (hp : t.shim.pods.calls[n]? = some ⟨.create spec suffix, .finished result⟩) :
    ∃ image, b.Creating k (.forPod spec.nspace spec.name image suffix) (callsFor n t.errands) result := by
  obtain ⟨image, left, hleads, hs⟩ := h.remains hp
  obtain rfl := hs.ended
  rw [← toolCalls_talkFor]
  exact ⟨image, Tooled.creating_of_leads hleads⟩

theorem Run.begins (h : Run (.new b.backend k now images) log t) {p : Pods.Point (.create spec suffix)}
    (hp : t.shim.pods.calls[n]? = some ⟨.create spec suffix, p⟩) :
    ∃ image, b.Begins k (.forPod spec.nspace spec.name image suffix) (callsFor n t.errands) := by
  obtain ⟨image, left, hleads, -⟩ := h.remains hp
  rw [← toolCalls_talkFor]
  exact ⟨image, Tooled.begins_of_leads hleads⟩

/-- A create whose work has broken down has not ended, and has called no tool that ends a machine. -/
theorem Run.breaking (h : Run (.new b.backend k now images) log t) {p : Pods.Point (.create spec suffix)}
    (hp : t.shim.pods.calls[n]? = some ⟨.create spec suffix, p⟩) {e : Errand} (he : e ∈ t.errands)
    (hn : e.order.call? = some n) {why : String} (hl : e.left = Program.crash why) :
    why = "overflow when adding duration to instant" ∧ t.shim.pods.result? n (.create spec suffix) = none ∧
      ∃ image, b.Breaking k (.forPod spec.nspace spec.name image suffix) (callsFor n t.errands) := by
  obtain ⟨image, left, hleads, hs⟩ := h.remains hp
  obtain rfl := h.left_of_crash hp hs he hn hl
  obtain ⟨hover, rfl⟩ := Tooled.leads_creation_crash_iff.mp hleads
  refine ⟨rfl, Option.eq_none_iff_forall_ne_some.mpr fun result hresult => ?_, image, ?_⟩
  · cases hp.symm.trans (Pods.System.result?_eq_some.mp hresult)
    cases hs.ended
  · rw [← toolCalls_talkFor]
    exact hover.breaking

/-- Which tools a create has called. -/
structure Traced (b : Tooled) (k : Agent.Connector) (t : Rig α) (n : Nat) (spec : Sandbox.Spec) (suffix : UInt32) :
    Prop where
  /-- What it has called is how the calls for a sandbox begin. -/
  begun : ∃ image, b.Begins k (.forPod spec.nspace spec.name image suffix) (callsFor n t.errands)
  /-- A create that comes to an end has called all of them. -/
  ended : ∀ {result : Except Failure String}, t.shim.pods.result? n (.create spec suffix) = some result →
    ∃ image, b.Creating k (.forPod spec.nspace spec.name image suffix) (callsFor n t.errands) result
  /-- If work for it breaks down, it comes to no end and ends no machine, however the service goes on. -/
  broken : ∀ {e : Errand} {why : String}, e ∈ t.errands → e.order.call? = some n → e.left = Program.crash why →
    why = "overflow when adding duration to instant" ∧ ∀ more u, Run t more u →
      u.shim.pods.result? n (.create spec suffix) = none ∧
        ∃ image, b.Breaking k (.forPod spec.nspace spec.name image suffix) (callsFor n u.errands)

/-- Whatever the tools and the agent reply, a create calls the tools that its steps require, in order. By its end it has
    called them all, and it has ended its machine exactly if it has got one and fails, as what failed first. The work of
    one breaks down only where a deadline cannot be counted, and its machine is left as it is. -/
theorem creation_traced (b : Tooled) (k : Agent.Connector) (images : Option Images)
    (h : Run (.new b.backend k now images) log t) {p : Pods.Point (.create spec suffix)}
    (hp : t.shim.pods.calls[n]? = some ⟨.create spec suffix, p⟩) : Traced b k t n spec suffix where
  begun := h.begins hp
  ended hresult := h.creating (Pods.System.result?_eq_some.mp hresult)
  broken he hn hl := by
    refine ⟨(h.breaking hp he hn hl).1, fun more u hu => ?_⟩
    obtain ⟨p', hp'⟩ := hu.call_kept hp
    exact ((h.trans hu).breaking hp' (hu.mem_of_crash he hl) hn hl).2

end

/-! ### Creates without a sandbox -/

namespace Loss

/-- A create whose machine runs. -/
def started : List (Move Session.Answer) :=
  Tour.create 0 0 0 1 [Tour.prints "", Tour.prints "", Tour.prints ""] ++ [.tell 0]

/-- The tool is gone when the address is looked for, and when the machine is to end. -/
def moves : List (Move Session.Answer) :=
  started ++ Tour.done 1 (.strand ⟨0, 0⟩ (.backend (.addresses (Tour.machine 1)))) [Tour.prints "", .error "gone"] ++
    Tour.done 2 (.strand ⟨0, 0⟩ (.backend (.destroy (Tour.machine 1)))) [.error "gone", .error "gone"]

def log : List Pods.Note :=
  (Tour.first.played moves).1

def final : Rig Session.Answer :=
  (Tour.first.played moves).2

theorem run : Run Tour.first log final :=
  run_played (by decide +kernel)

def spec : Sandbox.Spec :=
  Service.translated none (.ofConfig {} "")

def failure : CommandFailure :=
  ⟨(VirtualBox.propertyQuery "vmpod-00000001").toText, "failed to spawn VBoxManage: gone"⟩

end Loss

/-- A machine that cannot be asked for its address is powered off and deleted, in vain, and the first failure is told. -/
theorem creation_traced_lost :
    (callsFor 0 Loss.final.errands).map Prod.fst =
      [VirtualBox.clone ⟨"eth0", "base", 300⟩ (Tour.vm 1), VirtualBox.bridge ⟨"eth0", "base", 300⟩ "vmpod-00000001",
        VirtualBox.launch "vmpod-00000001", VirtualBox.propertyQuery "vmpod-00000001",
        VirtualBox.powerOff "vmpod-00000001", VirtualBox.deletion "vmpod-00000001"] ∧
    ∃ image, Tour.tool.Creating .meeting (.forPod "" "" image 1) (callsFor 0 Loss.final.errands)
      (.error (.network "vmpod-00000001" Loss.failure.message)) := by
  refine ⟨by decide +kernel, ?_⟩
  have hresult : Loss.final.shim.pods.result? 0 (.create Loss.spec 1) =
      some (.error (.network "vmpod-00000001" Loss.failure.message)) := by
    decide +kernel
  have htraced := creation_traced Tour.tool .meeting none Loss.run (Pods.System.result?_eq_some.mp hresult)
  exact htraced.ended hresult

namespace Overlong

/-- A machine has more seconds for its address than the clock can count. -/
def config : Config.VirtualBox :=
  ⟨"eth0", "base", 0xffffffffffffffff⟩

def first : Rig Session.Answer :=
  .new (Tooled.virtualBox config).backend .meeting 0 none

def moves : List (Move Session.Answer) :=
  Loss.started ++ Tour.begin 1 (.strand ⟨0, 0⟩ (.backend (.addresses (Tour.machine 1)))) [Tour.prints ""]

def log : List Pods.Note :=
  (first.played moves).1

def final : Rig Session.Answer :=
  (first.played moves).2

theorem run : Run first log final :=
  run_played (by decide +kernel)

def calls : List Command :=
  [VirtualBox.clone config (Tour.vm 1), VirtualBox.bridge config (Tour.vm 1).name, VirtualBox.launch (Tour.vm 1).name]

end Overlong

/-- A clone that was bridged and started is neither polled for its address nor ended, however the service goes on. -/
theorem clone_left_running :
    callsFor 0 Overlong.final.errands = Overlong.calls.map (·, Tour.prints "") ∧
    ∀ more u, Run Overlong.final more u → u.shim.pods.result? 0 (.create Loss.spec 1) = none ∧
      (callsFor 0 u.errands).map Prod.fst = Overlong.calls := by
  have hbroken : (Overlong.final.errands.any fun e => match e.left with
      | Program.crash _ => e.order.call? = some 0
      | _ => false) = true := by
    decide +kernel
  have hcall : Overlong.final.shim.pods.calls[0]?.map Pods.Running.call = some (.create Loss.spec 1) := by
    decide +kernel
  obtain ⟨e, he, hn⟩ := List.any_eq_true.mp hbroken
  obtain ⟨⟨c, p⟩, hp, hc⟩ := Option.map_eq_some_iff.mp hcall
  obtain rfl : c = .create Loss.spec 1 := hc
  refine ⟨by decide +kernel, fun more u hu => ?_⟩
  obtain ⟨p', hp'⟩ := hu.call_kept hp
  split at hn
  · rename_i why hl
    obtain ⟨-, hnone, image, hbreaking⟩ :=
      (Overlong.run.trans hu).breaking hp' (hu.mem_of_crash he hl) (of_decide_eq_true hn) hl
    refine ⟨hnone, ?_⟩
    generalize callsFor 0 u.errands = calls at hbreaking
    cases hbreaking with
    | looking hb h hover =>
      cases h
      rfl
    | dialing hk => cases hk
  · cases hn

end Rig
end PodMachines
