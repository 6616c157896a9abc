import PodMachines.Backend.Ec2
import PodMachines.Backend.Gce
import PodMachines.Backend.VirtualBox
import PodMachines.Agent.Dial
import PodMachines.Images
import PodMachines.Proofs.Shim.Talk

/-! Backends that are driven through a tool: which commands end a machine, and which machine a command has made.
    Making a machine ends only the machine that was made, and only when that fails; ending one ends that one; and
    nothing else ends any. -/

namespace PodMachines
open Backend

/-- Whether a command ends a machine. -/
def Command.Ends (c : Command) : Prop :=
  c.program = "aws" ∧ ["ec2", "terminate-instances"] <+: c.args ∨
    c.program = "gcloud" ∧ ["compute", "instances", "delete"] <+: c.args ∨
      c.program = "VBoxManage" ∧ (["unregistervm"] <+: c.args ∨ ∃ id, ["controlvm", id, "poweroff"] <+: c.args)

/-- What a command printed, decoded. -/
def Command.decoded [Doc.Parsers] {α : Type} (c : Command) (decode : Doc.Decode α) (reply : Except String Ended) :
    Except CommandFailure α :=
  match c.result reply with
  | .error f => .error f
  | .ok output =>
    match Doc.Decode.run decode (Doc.Parsers.json output) with
    | .error e => .error (c.unparseable e)
    | .ok a => .ok a

theorem eq_ok_of_toOption {ε α : Type} {r : Except ε α} {a : α} (h : r.toOption = some a) : r = .ok a := by
  cases r with
  | error e => cases h
  | ok b => exact congrArg Except.ok (Option.some.inj h)

/-- A backend that is driven through a tool. -/
inductive Tooled
  | ec2 (c : Config.Ec2)
  | gce (c : Config.Gce)
  | virtualBox (c : Config.VirtualBox)

namespace Tooled

def backend [Doc.Parsers] : Tooled → Backend
  | ec2 c => Ec2.backend c
  | gce c => Gce.backend c
  | virtualBox c => VirtualBox.backend c

/-- The commands that end the machine of an id. -/
def teardowns (b : Tooled) (id : String) : List Command :=
  match b with
  | ec2 c => [Ec2.command c ["ec2", "terminate-instances"] ["--instance-ids", id]]
  | gce c => [Gce.onInstance c "delete" id ["--quiet"]]
  | virtualBox _ =>
    [VirtualBox.command ["controlvm", id, "poweroff"], VirtualBox.command ["unregistervm", id, "--delete"]]

theorem ends_of_mem_teardowns {b : Tooled} {command : Command} {id : String} (h : command ∈ b.teardowns id) :
    command.Ends := by
  cases b with
  | ec2 c =>
    obtain rfl := List.mem_singleton.mp h
    exact .inl ⟨rfl, ["--region", c.region, "--output", "json", "--instance-ids", id], rfl⟩
  | gce c =>
    obtain rfl := List.mem_singleton.mp h
    exact .inr (.inl ⟨rfl, List.prefix_append ..⟩)
  | virtualBox c =>
    refine .inr (.inr ?_)
    obtain rfl | h := List.mem_cons.mp h
    · exact ⟨rfl, .inr ⟨id, List.prefix_rfl⟩⟩
    · obtain rfl := List.mem_singleton.mp h
      exact ⟨rfl, .inl (List.prefix_append ["unregistervm"] [id, "--delete"])⟩

theorem teardowns_inj {b : Tooled} {command : Command} {id id' : String} (h : command ∈ b.teardowns id)
    (h' : command ∈ b.teardowns id') : id = id' := by
  cases b with
  | ec2 c => simp_all [teardowns, Ec2.command]
  | gce c => simp_all [teardowns, Gce.onInstance]
  | virtualBox c =>
    simp only [teardowns, List.mem_cons, List.not_mem_nil, or_false] at h h'
    obtain rfl | rfl := h <;> simp_all [VirtualBox.command]

section
variable [Doc.Parsers]

/-- The id of the machine that a command has made: the first that is printed, or the name that was asked for where the
    tool prints none. -/
def obtains (b : Tooled) (command : Command) (reply : Except String Ended) : Option String :=
  match b, command.args with
  | ec2 _, "ec2" :: "run-instances" :: _ => (command.decoded Ec2.launched reply).toOption.bind List.head?
  | gce _, "compute" :: "instances" :: "create" :: name :: _ =>
    (command.decoded (.listOf Gce.Instance.decode) reply).toOption.map fun created =>
      (created.head?.map Gce.Instance.name).getD name
  | virtualBox _, "clonevm" :: _ :: "--name" :: name :: _ => (command.result reply).toOption.map fun _ => name
  | _, _ => none

/-- The ids of the machines that were made in a talk with the outside. -/
def obtained (b : Tooled) (talk : Program.Talk Ask Ask.Reply) : List String :=
  talk.filterMap fun
    | ⟨.run command, reply⟩ => b.obtains command reply
    | _ => none

@[simp] theorem obtained_append (b : Tooled) (talk rest : Program.Talk Ask Ask.Reply) :
    b.obtained (talk ++ rest) = b.obtained talk ++ b.obtained rest :=
  List.filterMap_append

@[simp] theorem obtained_run (b : Tooled) (command : Command) (reply : Except String Ended) :
    b.obtained [⟨.run command, reply⟩] = (b.obtains command reply).toList := by
  simp only [obtained, List.filterMap_cons, List.filterMap_nil]
  cases b.obtains command reply <;> rfl

end
end Tooled

/-- A question that ends no machine. -/
def Ask.Spares (q : Ask) : Prop :=
  ∀ command, q = .run command → ¬command.Ends

/-- A question that ends no machine but one. -/
def Ask.SparesBut (b : Tooled) (id : String) (q : Ask) : Prop :=
  ∀ command, q = .run command → command.Ends → command ∈ b.teardowns id

/-- Whether work that makes a machine ends only what it has made, and only if it then fails; and what it comes to is
    what it has made. `got` are the ids that it has got. -/
def Tidy [Doc.Parsers] (b : Tooled) (got : List String) : Work (Except Failure Machine.Handle) → Prop
  | .done (.ok machine) => got = [machine.id]
  | .done (.error _) => True
  | .crash _ => True
  | Program.ask (.run command) next =>
    (command.Ends → ∃ id ∈ got, command ∈ b.teardowns id ∧ ∀ r, (next r).Yields fun a => ∃ f, a = .error f) ∧
      ∀ r, Tidy b (got ++ (b.obtains command r).toList) (next r)
  | Program.ask _ next => ∀ r, Tidy b got (next r)

section
variable {α β : Type} {command : Command} {b : Tooled} {got : List String}

theorem Command.run_bind (next : Except CommandFailure String → Work β) :
    command.run.bind next = Program.ask (.run command) fun reply => next (command.result reply) := rfl

section
variable [Doc.Parsers]

theorem Command.runJson_bind (decode : Doc.Decode α) (next : Except CommandFailure α → Work β) :
    (command.runJson decode).bind next = Program.ask (.run command) fun reply => next (command.decoded decode reply) := by
  show Program.bind (Program.bind command.run _) next = _
  rw [Program.bind_assoc, run_bind]
  refine congrArg (Program.ask (Ask.run command)) (funext fun reply => ?_)
  unfold decoded
  cases command.result reply with
  | error f => rfl
  | ok output =>
    dsimp only
    cases Doc.Decode.run decode (Doc.Parsers.json output) <;> rfl

theorem tidy_run {next : Except String Ended → Work (Except Failure Machine.Handle)} :
    Tidy b got (Program.ask (.run command) next) ↔
      (command.Ends → ∃ id ∈ got, command ∈ b.teardowns id ∧ ∀ r, (next r).Yields fun a => ∃ f, a = .error f) ∧
        ∀ r, Tidy b (got ++ (b.obtains command r).toList) (next r) := Iff.rfl

theorem Tidy.idle {next : Except String Ended → Work (Except Failure Machine.Handle)} (hends : ¬command.Ends)
    (hmakes : ∀ r, b.obtains command r = none) (h : ∀ r, Tidy b got (next r)) :
    Tidy b got (Program.ask (.run command) next) := by
  refine ⟨fun he => absurd he hends, fun r => ?_⟩
  rw [hmakes r, Option.toList_none, List.append_nil]
  exact h r

theorem Tidy.undo {id : String} {f : Failure} (hid : id ∈ got) (ht : command ∈ b.teardowns id) :
    Tidy b got (command.run.bind fun _ => .done (.error f)) :=
  ⟨fun _ => ⟨id, hid, ht, fun _ => ⟨f, rfl⟩⟩, fun _ => trivial⟩

namespace Backend

theorem Ec2.provision_tidy (c : Config.Ec2) (spec : Machine.Spec) : Tidy (.ec2 c) [] (provision c spec) := by
  show Tidy _ _ (Program.bind _ _)
  rw [Command.runJson_bind, tidy_run]
  refine ⟨fun h => absurd h (by simp [Command.Ends, launch, command]), fun reply => ?_⟩
  have hgot : (Tooled.ec2 c).obtains (launch c spec) reply =
      ((launch c spec).decoded launched reply).toOption.bind List.head? := rfl
  rw [hgot]
  cases (launch c spec).decoded launched reply with
  | error f => trivial
  | ok ids =>
    cases ids with
    | nil => trivial
    | cons id rest =>
      show Tidy _ [id] (Program.bind _ _)
      rw [Command.run_bind]
      refine .idle (by simp [Command.Ends, command]) (fun r => rfl) fun reply => ?_
      cases (command c ["ec2", "wait", "instance-running"] ["--instance-ids", id]).result reply with
      | ok output => rfl
      | error f => exact .undo (List.mem_singleton_self id) (List.mem_singleton_self _)

theorem Gce.provision_tidy (c : Config.Gce) (spec : Machine.Spec) : Tidy (.gce c) [] (provision c spec) := by
  show Tidy _ _ (Program.bind _ _)
  rw [Command.runJson_bind, tidy_run]
  refine ⟨fun h => absurd h (by simp [Command.Ends, create, onInstance]), fun reply => ?_⟩
  have hgot : (Tooled.gce c).obtains (create c spec) reply =
      ((create c spec).decoded (.listOf Instance.decode) reply).toOption.map fun created =>
        (created.head?.map Instance.name).getD spec.name := rfl
  rw [hgot]
  cases (create c spec).decoded (.listOf Instance.decode) reply with
  | error f => trivial
  | ok created => rfl

theorem VirtualBox.provision_tidy (c : Config.VirtualBox) (spec : Machine.Spec) :
    Tidy (.virtualBox c) [] (provision c spec) := by
  show Tidy _ _ (Program.bind _ _)
  rw [Command.run_bind, tidy_run]
  refine ⟨fun h => absurd h (by simp [Command.Ends, command]), fun reply => ?_⟩
  have hgot : (Tooled.virtualBox c).obtains (command ["clonevm", c.vmSrc, "--name", spec.name, "--register"]) reply =
      ((command ["clonevm", c.vmSrc, "--name", spec.name, "--register"]).result reply).toOption.map fun _ => spec.name :=
    rfl
  rw [hgot]
  cases (command ["clonevm", c.vmSrc, "--name", spec.name, "--register"]).result reply with
  | error f => trivial
  | ok output =>
    have undo (f : CommandFailure) : Tidy (.virtualBox c) [spec.name]
        ((unregister spec.name).bind fun _ => .done (.error (.provision name f.message))) :=
      .undo (List.mem_singleton_self _) (List.mem_cons_of_mem _ (List.mem_singleton_self _))
    show Tidy _ [spec.name] (Program.bind (Program.bind _ _) _)
    rw [Program.bind_assoc, Command.run_bind]
    refine .idle (by simp [Command.Ends, command]) (fun r => rfl) fun reply => ?_
    cases (command ["modifyvm", spec.name, "--nic1", "bridged", "--bridgeadapter1", c.netDevice]).result reply with
    | error f => exact undo f
    | ok output =>
      show Tidy _ [spec.name] (Program.bind (Program.bind _ _) _)
      rw [Program.bind_assoc, Command.run_bind]
      refine .idle (by simp [Command.Ends, command]) (fun r => rfl) fun reply => ?_
      cases (command ["startvm", spec.name, "--type", "headless"]).result reply with
      | error f => exact undo f
      | ok output => rfl

end Backend

theorem Tooled.provision_tidy (b : Tooled) (spec : Machine.Spec) : Tidy b [] (b.backend.serve (.provision spec)) := by
  cases b with
  | ec2 c => exact Ec2.provision_tidy c spec
  | gce c => exact Gce.provision_tidy c spec
  | virtualBox c => exact VirtualBox.provision_tidy c spec

theorem Tidy.led {p left : Work (Except Failure Machine.Handle)} {talk : Program.Talk Ask Ask.Reply}
    (h : p.Leads talk left) (hp : Tidy b got p) : Tidy b (got ++ b.obtained talk) left := by
  induction h generalizing got with
  | rest => rwa [Tooled.obtained, List.filterMap_nil, List.append_nil]
  | @reply q next talk left r h ih =>
    cases q with
    | run command =>
      have ih := ih (hp.2 r)
      rw [← Tooled.obtained_run, List.append_assoc, ← Tooled.obtained_append] at ih
      exact ih
    | _ => exact ih (hp r)

end

/-! ### What ends no machine -/

section
variable {allowed : Ask → Prop}

theorem Command.run_uses (h : allowed (.run command)) : command.run.Uses allowed :=
  ⟨h, fun _ => trivial⟩

theorem Command.runJson_uses [Doc.Parsers] (decode : Doc.Decode α) (h : allowed (.run command)) :
    (command.runJson decode).Uses allowed := by
  refine (run_uses h).bind fun result => ?_
  cases result with
  | error f => trivial
  | ok output =>
    dsimp only
    cases Doc.Decode.run decode (Doc.Parsers.json output) <;> trivial

theorem Command.spares (h : ¬command.Ends) : Ask.Spares (.run command) := by
  intro other heq
  cases heq
  exact h

end

theorem Work.deadline_uses {allowed : Ask → Prop} (h : allowed .clock) (milliseconds : Nat) :
    (Work.deadline milliseconds).Uses allowed := by
  refine ⟨h, fun now => ?_⟩
  show Program.Uses _ (if _ then _ else _)
  split <;> trivial

namespace Backend

theorem Ec2.describe_spares [Doc.Parsers] (c : Config.Ec2) (id : String) : (describe c id).Uses Ask.Spares := by
  refine (Command.runJson_uses _ (Command.spares (by simp [Command.Ends, command]))).bind fun result => ?_
  cases result <;> trivial

theorem Gce.describe_spares [Doc.Parsers] (c : Config.Gce) (id : String) : (describe c id).Uses Ask.Spares := by
  refine (Command.runJson_uses _ (Command.spares (by simp [Command.Ends, onInstance]))).bind fun result => ?_
  cases result <;> trivial

theorem VirtualBox.poll_spares (c : Config.VirtualBox) (id : String) (deadline most : Nat) :
    (poll c id deadline most).Uses Ask.Spares := by
  induction most with
  | zero => trivial
  | succ most ih =>
    refine (Command.run_uses (Command.spares (by simp [Command.Ends, command]))).bind fun result => ?_
    cases result with
    | error f => trivial
    | ok output =>
      dsimp only
      cases (Machine.guestProperty? output).bind Address.ofText? with
      | some address => trivial
      | none =>
        refine ⟨nofun, fun now => ?_⟩
        show Program.Uses _ (if _ then _ else _)
        split
        · trivial
        · exact ⟨nofun, fun _ => ih⟩

end Backend

theorem Tooled.addresses_spares [Doc.Parsers] (b : Tooled) (machine : Machine.Handle) :
    (b.backend.serve (.addresses machine)).Uses Ask.Spares := by
  cases b with
  | ec2 c => exact (Ec2.describe_spares c machine.id).bind fun result => by cases result <;> trivial
  | gce c => exact (Gce.describe_spares c machine.id).bind fun result => by cases result <;> trivial
  | virtualBox c =>
    exact (Work.deadline_uses nofun _).bind fun deadline => VirtualBox.poll_spares c machine.id deadline _

theorem Tooled.state_spares [Doc.Parsers] (b : Tooled) (machine : Machine.Handle) :
    (b.backend.serve (.state machine)).Uses Ask.Spares := by
  cases b with
  | ec2 c => exact (Ec2.describe_spares c machine.id).bind fun result => by cases result <;> trivial
  | gce c => exact (Gce.describe_spares c machine.id).bind fun result => by cases result <;> trivial
  | virtualBox c =>
    refine (Command.run_uses (Command.spares (by simp [Command.Ends, VirtualBox.command]))).bind fun result => ?_
    cases result with
    | error f => trivial
    | ok info =>
      dsimp only
      cases Machine.State.ofVirtualBoxInfo? info <;> trivial

theorem Tooled.destroy_spares [Doc.Parsers] (b : Tooled) (machine : Machine.Handle) :
    (b.backend.serve (.destroy machine)).Uses (Ask.SparesBut b machine.id) := by
  have spares {command : Command} (h : command ∈ b.teardowns machine.id) : Ask.SparesBut b machine.id (.run command) := by
    intro other heq _
    cases heq
    exact h
  cases b with
  | ec2 c =>
    exact (Command.run_uses (spares (List.mem_singleton_self _))).bind fun result => by cases result <;> trivial
  | gce c =>
    exact (Command.run_uses (spares (List.mem_singleton_self _))).bind fun result => by cases result <;> trivial
  | virtualBox c =>
    refine (Command.run_uses (spares List.mem_cons_self)).bind fun _ => ?_
    refine (Command.run_uses (spares (List.mem_cons_of_mem _ (List.mem_singleton_self _)))).bind fun result => ?_
    cases result <;> trivial

theorem Agent.Connector.connect_uses (c : Agent.Connector) (address : Address) {allowed : Ask → Prop}
    (h : ∀ q : Ask, (∀ command, q ≠ .run command) → allowed q) : (c.connect address).Uses allowed := by
  cases c with
  | meeting => exact ⟨h _ nofun, fun _ => trivial⟩
  | dialing d =>
    refine (Work.deadline_uses (h _ nofun) _).bind fun deadline => ?_
    generalize d.attempts = most
    induction most with
    | zero =>
      refine ⟨h _ nofun, fun reply => ?_⟩
      cases reply <;> trivial
    | succ most ih =>
      refine ⟨h _ nofun, fun reply => ?_⟩
      cases reply with
      | ok connection => trivial
      | error why =>
        refine ⟨h _ nofun, fun now => ?_⟩
        show Program.Uses _ (if _ then _ else _)
        split
        · exact ⟨h _ nofun, fun _ => ih⟩
        · trivial

theorem Agent.Connector.connect_spares (c : Agent.Connector) (address : Address) :
    (c.connect address).Uses Ask.Spares :=
  c.connect_uses address fun _ h command heq => absurd heq (h command)

/-! ### Images -/

/-- Images as a provider offers them. -/
inductive Images.Offered [Doc.Parsers] : Images → Prop
  | prefixing (start : String) : Offered (.prefixing start)
  | ec2 (c : Config.Ec2) : Offered (.ofCatalog (Ec2.catalog c))
  | gce (c : Config.Gce) : Offered (.ofCatalog (Gce.catalog c))
  | simulated (name : String) : Offered (.ofCatalog (.simulated name))

/-- Looking for images ends no machine. -/
def Images.Spares (i : Images) : Prop :=
  ∀ reference, (i.find reference).Uses Ask.Spares

theorem Backend.Ec2.records_uses {allowed : Ask → Prop} (images : List Ec2.Ami) : (Ec2.records images).Uses allowed := by
  have total (sum : Nat) (sizes : List UInt64) : (Ec2.total sum sizes).Uses allowed := by
    induction sizes generalizing sum with
    | nil => trivial
    | cons size sizes ih =>
      unfold Ec2.total
      split
      · exact ih _
      · trivial
  induction images with
  | nil => trivial
  | cons image images ih =>
    have size : image.size.Uses allowed := by
      refine (total 0 image.volumes).bind fun sum => ?_
      split <;> trivial
    have record : image.record.Uses allowed := size.bind fun _ => trivial
    exact record.bind fun _ => ih.bind fun _ => trivial

theorem Images.Offered.spares [Doc.Parsers] {i : Images} (h : i.Offered) : i.Spares := by
  intro reference
  cases h with
  | prefixing start => trivial
  | ec2 c =>
    refine (Command.runJson_uses _ (Command.spares (by simp [Command.Ends, Ec2.command]))).bind fun result => ?_
    cases result with
    | error f => trivial
    | ok images => exact (Ec2.records_uses images).bind fun _ => trivial
  | gce c =>
    refine (Command.runJson_uses _ (Command.spares (by simp [Command.Ends]))).bind fun result => ?_
    cases result <;> trivial
  | simulated name => exact ⟨nofun, fun _ => trivial⟩

theorem Images.find_pulled (i : Images) (text : String) (found : Except Failure (List Image.Record))
    (reference : Image.Reference) : (i.pulled text found).2.find reference = i.find reference := by
  cases i <;> rfl

theorem Images.find_forget (i : Images) (text : String) (reference : Image.Reference) :
    (i.forget text).find reference = i.find reference := by
  cases i <;> rfl

end

end PodMachines
