import PodMachines.Proofs.Backend.Described
import PodMachines.Proofs.Machine.Display
import PodMachines.Proofs.Pods.Sampling
import PodMachines.Proofs.Shim.Hearing
import PodMachines.Proofs.Shim.Identity
import PodMachines.Proofs.Shim.Teardown

/-! What a verbose status shows of a machine. Main statement: it shows the text of the sample that its check went by,
    and with EC2 and VirtualBox that text is `running` exactly if the sandbox may still be ready for it; GCE shows it
    also of a machine whose sample has ended that, for every spelling of the word but its own. -/

namespace PodMachines
open Backend Service Session

namespace Tooled

/-- The state that a backend reads a text of its tool as. -/
def state? : Tooled → String → Option Machine.State
  | .ec2 _, word => some (.ofEc2 word)
  | .gce _, word => some (.ofGce word)
  | .virtualBox _, info => Machine.State.ofVirtualBoxInfo? info

/-- Whether a backend reads a text as a state that reads as running and is not. -/
def Misreads : Tooled → String → Prop
  | .gce _, word => word ≠ "RUNNING" ∧ word.toList.map Char.toLower = "running".toList
  | _, _ => False

section
variable {b : Tooled} {text : String} {x : Machine.State}

theorem misreads_iff (h : b.state? text = some x) : b.Misreads text ↔ x = .other "running" := by
  cases b with
  | ec2 c =>
    cases h
    exact iff_of_false id (Machine.State.ofEc2_ne_other text)
  | gce c =>
    cases h
    exact Machine.State.ofGce_eq_other_iff.symm
  | virtualBox c =>
    obtain ⟨word, -, rfl⟩ := Option.map_eq_some_iff.mp h
    exact iff_of_false id (Machine.State.ofVirtualBox_ne_other _)

/-- A state reads as running exactly if the machine runs or the text was misread. -/
theorem toText_eq_running_iff (h : b.state? text = some x) :
    x.toText = "running" ↔ x.isRunning = true ∨ b.Misreads text := by
  rw [misreads_iff h, Machine.State.toText_eq_running_iff]

/-- What is answered of the state of a machine was read from a text. -/
theorem state_yields [Doc.Parsers] (b : Tooled) (machine : Machine.Handle) :
    (b.backend.serve (.state machine)).Yields fun a => ∀ x, a = .ok x → ∃ text, b.state? text = some x := by
  cases b with
  | ec2 c =>
    show (Ec2.serve c (.state machine)).Yields _
    rw [Ec2.serve_state]
    intro reply x hx
    obtain ⟨i, -, rfl⟩ := answered_eq_ok.mp hx
    exact ⟨i.state, rfl⟩
  | gce c =>
    show (Gce.serve c (.state machine)).Yields _
    rw [Gce.serve_state]
    intro reply x hx
    obtain ⟨i, -, rfl⟩ := answered_eq_ok.mp hx
    exact ⟨i.status, rfl⟩
  | virtualBox c =>
    show (Program.bind _ _).Yields _
    rw [Command.run_bind]
    intro reply
    dsimp only
    cases (VirtualBox.command ["showvminfo", machine.id, "--machinereadable"]).result reply with
    | error f => exact nofun
    | ok info =>
      dsimp only
      cases hx : Machine.State.ofVirtualBoxInfo? info with
      | none => exact nofun
      | some x =>
        rintro _ ⟨⟩
        exact ⟨info, hx⟩

end
end Tooled

namespace Pods

theorem Deed.found?_eq_some {d : Deed} {x : Machine.State} :
    d.found? = some x ↔ ∃ machine, d = .hears (.backend (.state machine)) (.ok x) := by
  constructor
  · intro h
    unfold found? at h
    split at h
    · cases h
      exact ⟨_, rfl⟩
    · cases h
  · rintro ⟨machine, rfl⟩
    rfl

theorem Run.sample_of_told {backend : String} {catalog : Option String} {now : Nat} {log : List Note} {s : System}
    (h : Run (.new backend catalog now) log s) {i : Nat} {pre post : List Note} {e : Note} {status : Sandbox.Status}
    (hs : chronicle i log = pre ++ e :: post) (ht : e.deed.told? = some status) : status.machine = lastFound pre := by
  cases hr : s.store.records[i]? with
  | none =>
    rw [h.chronicle_eq_nil (List.getElem?_eq_none_iff.mp hr)] at hs
    cases pre <;> cases hs
  | some r =>
    obtain ⟨w, -, hlife⟩ := h.life hr
    exact (hlife.sampled.grounded pre e post hs status ht).1

/-- What is known of a machine was found by a query, unless it runs. -/
theorem lastFound_cases (ns : List Note) :
    lastFound ns = .running ∨ ∃ e ∈ ns, e.deed.found? = some (lastFound ns) := by
  unfold lastFound
  cases hlast : (answers ns).getLast? with
  | none => exact .inl rfl
  | some a =>
    obtain ⟨e, he, hfound⟩ := List.mem_filterMap.mp (List.mem_of_getLast? hlast)
    obtain ⟨x, hx, rfl⟩ := Option.map_eq_some_iff.mp hfound
    exact .inr ⟨e, he, hx⟩

end Pods

theorem find?_details {backend : String} {s : Sandbox.Status} :
    (details backend true s).find? "vmState" = some s.machine.toText := by
  rw [details, if_pos rfl, Table.find?_insert, if_pos rfl]

namespace Rig

/-- What a verbose status shows of a machine: `s` is what was reported of the sandbox, whose record had gone through
    `pre` before. -/
structure Shown (b : Tooled) (pre : List Pods.Note) (s : Sandbox.Status) (more : Message.Texts) : Prop where
  /-- It shows the text of the last sample. -/
  text : more.find? "vmState" = some s.machine.toText
  sample : s.machine = Pods.lastFound pre
  /-- The sandbox is not ready if the machine does not run by that. -/
  downgraded : s.machine.isRunning = false → s.state = .notReady
  /-- The text is that of a running machine exactly if the machine runs by the sample, or the sample was misread. -/
  running : more.find? "vmState" = some "running" ↔
    s.machine.isRunning = true ∨ ∃ word, b.Misreads word ∧ b.state? word = some s.machine

/-- Which machines are shown as running. -/
structure Displayed (b : Tooled) (log : List Pods.Note) (t : Rig Answer) : Prop where
  /-- A text of the tool is read as a state that reads as running exactly if the machine runs, or it was misread. -/
  read : ∀ {text : String} {x : Machine.State}, b.state? text = some x →
    (x.toText = "running" ↔ x.isRunning = true ∨ b.Misreads text)
  /-- Every sample was read so. -/
  sampled : ∀ {e : Pods.Note} {x : Machine.State}, e ∈ log → e.deed.found? = some x → ∃ text, b.state? text = some x
  /-- A verbose status shows the sample that its check went by. -/
  verbose : ∀ {n : Nat} {job : Job Answer} {name id : String} {message : Message.PodStatus} {more : Message.Texts},
    t.shim.jobs[n]? = some job → job.course = requested name (.podStatus id true) →
      job.left = .done (.response (.podStatus id true) (message, more)) → ∃ s i pre e post,
        message = s.toMessage ∧ s.id = id ∧ Pods.chronicle i log = pre ++ e :: post ∧ e.deed.told? = some s ∧
          Shown b pre s more

section
variable [Doc.Parsers]
variable {b : Tooled} {k : Agent.Connector} {now : Nat} {images : Option Images} {t : Rig Answer}
  {log : List Pods.Note}

theorem Run.read_of_found (h : Run (.new b.backend k now images) log t) {e : Pods.Note} {x : Machine.State}
    (he : e ∈ log) (hx : e.deed.found? = some x) : ∃ text, b.state? text = some x := by
  obtain ⟨machine, hd⟩ := Pods.Deed.found?_eq_some.mp hx
  have hheard : (⟨.backend (.state machine), .ok x⟩ : Pods.Answered) ∈ Pods.heard e.strand log := by
    refine List.mem_filterMap.mpr ⟨e, he, (if_pos rfl).trans ?_⟩
    rw [hd]
    rfl
  obtain ⟨errand, -, talk, -, hleads⟩ := (h.attended rfl e.strand).came _ hheard
  exact hleads.yields (b.state_yields machine) x rfl

theorem Run.shown (h : Run (.new b.backend k now images) log t) {i : Nat} {pre post : List Pods.Note} {e : Pods.Note}
    {s : Sandbox.Status} (hs : Pods.chronicle i log = pre ++ e :: post) (ht : e.deed.told? = some s) (name : String) :
    Shown b pre s (details name true s) := by
  have hsample : s.machine = Pods.lastFound pre := h.pods.sample_of_told hs ht
  have hmisread : s.machine = .running ∨ ∃ text, b.state? text = some s.machine := by
    rw [hsample]
    obtain hrunning | ⟨q, hq, hfound⟩ := Pods.lastFound_cases pre
    · exact .inl hrunning
    · have hmem : q ∈ Pods.chronicle i log := hs ▸ List.mem_append_left _ hq
      exact .inr (h.read_of_found (Pods.mem_chronicle.mp hmem).1 hfound)
  refine ⟨find?_details, hsample, fun hstopped => ?_, ?_⟩
  · have hready := (h.pods.truthful hs s ht).2
    cases hstate : s.state with
    | notReady => rfl
    | ready =>
      rw [hready hstate] at hstopped
      cases hstopped
  · rw [find?_details, Option.some.injEq]
    obtain hrunning | ⟨text, htext⟩ := hmisread
    · rw [hrunning]
      exact iff_of_true rfl (.inl rfl)
    · rw [b.toText_eq_running_iff htext]
      refine or_congr_right ⟨fun hm => ⟨text, hm, htext⟩, ?_⟩
      rintro ⟨word, hm, hword⟩
      rw [Tooled.misreads_iff hword] at hm
      exact (Tooled.misreads_iff htext).mpr hm

/-- Whatever is told of the state of machines, `running` is shown of those that run, and otherwise only where GCE was
    told the word in another spelling than its own. -/
theorem running_displayed (h : Run (.new b.backend k now images) log t) : Displayed b log t where
  read := b.toText_eq_running_iff
  sampled := h.read_of_found
  verbose {n job name id message more} hj hcourse hleft := by
    obtain ⟨ms, hshim⟩ := h.shim
    have hleads := (hshim.sound (Nat.zero_le n) hj).leads
    rw [hcourse, hleft] at hleads
    obtain ⟨s, htold, rfl, rfl⟩ := told_of_podStatus hleads
    obtain ⟨call, hcall⟩ := hshim.told_of_call (Nat.zero_le n) hj htold
    have hresult := Pods.System.result?_eq_some.mpr hcall
    obtain ⟨i, -, -, -, e, he, -, ht⟩ := h.pods.reported (.inl ⟨_, hresult⟩)
    obtain ⟨pre, post, hs⟩ := List.append_of_mem he
    exact ⟨s, i, pre, e, post, rfl, h.pods.told_id hresult, hs, ht, h.shown hs ht name⟩

end

/-! ### A machine that is shown as running -/

namespace Misread

def cloud : Tooled :=
  .gce ⟨"image", "zone", "project", "scope", "key", "network", "subnet", "type"⟩

def first : Rig Answer :=
  .new cloud.backend .meeting 0 none

/-- The `n`-th request is received, and starts its call. -/
def receive (n : Nat) (r : Service.Request) : List (Move Answer) :=
  [.shim (.receive (requested "gcp" r)), .shim (.proceed n)]

def make : List (Move Answer) :=
  receive 0 (.runPod (some {}) "") ++ [.shim (.hear 0 (.suffix 1)), .shim (.proceed 0)] ++ Tour.go 0 1 ++
    Tour.done 0 (.strand ⟨0, 0⟩ (.backend (.provision (Tour.vm 1)))) [Tour.prints "[]"] ++
    Tour.done 1 (.strand ⟨0, 0⟩ (.backend (.addresses (Tour.machine 1))))
      [Tour.prints "\x7b\"name\":\"v\",\"networkInterfaces\":[\x7b\"networkIP\":\"10.0.0.1\"\x7d]\x7d"] ++
    Tour.done 2 (.strand ⟨0, 0⟩ (.connect Pods.Tour.address)) [Tour.prints ""] ++ Tour.go 0 2 ++ [.shim (.proceed 0)]

/-- When the sample is too old, the tool spells the state of the machine in small letters. -/
def moves : List (Move Answer) :=
  make ++ [.shim (.pods (.pass 30001))] ++ receive 1 (.podStatus (Tour.vm 1).name true) ++ Tour.go 1 4 ++
    Tour.done 3 (.strand ⟨1, 0⟩ (.backend (.state (Tour.machine 1))))
      [Tour.prints "\x7b\"name\":\"v\",\"status\":\"running\"\x7d"] ++ [.shim (.proceed 1)]

/-- What the second request is answered: the state of the sandbox, and that of its machine. -/
def told (t : Rig Answer) : Option (Int × Option String) :=
  match t.shim.jobs[1]?.map Job.left with
  | some (Program.done (Answer.response (.podStatus _ true) (message, more))) =>
    some (message.state, more.find? "vmState")
  | _ => none

theorem goes : (first.follow moves).map (fun x => told x.2) =
    some (some (Sandbox.State.notReady.number, some "running")) := by
  decide +kernel

end Misread

/-- The sandbox is not ready any more by a sample of which `running` is shown. -/
theorem running_displayed_misread : ∃ log t, Run Misread.first log t ∧ Displayed Misread.cloud log t ∧
    Misread.told t = some (Sandbox.State.notReady.number, some "running") := by
  obtain ⟨⟨log, t⟩, hfollow, htold⟩ := Option.map_eq_some_iff.mp Misread.goes
  have hrun : Run Misread.first log t := run_of_follow hfollow
  exact ⟨log, t, hrun, running_displayed (b := Misread.cloud) hrun, htold⟩

end Rig
end PodMachines
