import PodMachines.Proofs.Backend.Tooled

/-! Which image a machine is made from. Making a machine begins with the one command that makes it, and the command names
    the image that the machine is asked for with, else the configured one. -/

namespace PodMachines
open Backend

/-- Whether a command makes a machine. -/
def Command.Makes (c : Command) : Prop :=
  c.program = "aws" ∧ ["ec2", "run-instances"] <+: c.args ∨
    c.program = "gcloud" ∧ ["compute", "instances", "create"] <+: c.args ∨
      c.program = "VBoxManage" ∧ ["clonevm"] <+: c.args

def Ask.MakesNone (q : Ask) : Prop :=
  ∀ command, q = .run command → ¬command.Makes

theorem Command.makesNone {command : Command} (h : ¬command.Makes) : Ask.MakesNone (.run command) := by
  intro other heq
  cases heq
  exact h

namespace Tooled

def creating : Tooled → Machine.Spec → Command
  | ec2 c, vm => Ec2.launch c vm
  | gce c, vm => Gce.create c vm
  | virtualBox c, vm => VirtualBox.command ["clonevm", c.vmSrc, "--name", vm.name, "--register"]

/-- How an image is named in a command. -/
def naming (b : Tooled) (image : String) : List String :=
  match b with
  | ec2 _ => ["--image-id", image]
  | gce _ => Gce.imageFlags image
  | virtualBox _ => ["clonevm", image]

/-- Making a machine begins with the command that makes it, and whatever becomes of it, nothing that follows makes
    another. -/
theorem provision_begins [Doc.Parsers] (b : Tooled) (vm : Machine.Spec) :
    ∃ next, b.backend.serve (.provision vm) = Program.ask (.run (b.creating vm)) next ∧
      ∀ reply, (next reply).Uses Ask.MakesNone := by
  cases b with
  | ec2 c =>
    refine ⟨_, Command.runJson_bind Ec2.launched _, fun reply => ?_⟩
    rcases (Ec2.launch c vm).decoded Ec2.launched reply with f | ids
    · trivial
    rcases ids with _ | ⟨id, rest⟩
    · trivial
    refine (Command.run_uses (Command.makesNone (by simp [Command.Makes, Ec2.command]))).bind fun result => ?_
    rcases result with f | output
    · exact (Command.run_uses (Command.makesNone (by simp [Command.Makes, Ec2.command]))).bind fun _ => trivial
    · trivial
  | gce c =>
    refine ⟨_, Command.runJson_bind (.listOf Gce.Instance.decode) _, fun reply => ?_⟩
    cases (Gce.create c vm).decoded (.listOf Gce.Instance.decode) reply <;> trivial
  | virtualBox c =>
    refine ⟨_, Command.run_bind _, fun reply => ?_⟩
    rcases (VirtualBox.command ["clonevm", c.vmSrc, "--name", vm.name, "--register"]).result reply with f | output
    · trivial
    have quiet {args : List String} (h : args.head? ≠ some "clonevm") :
        (VirtualBox.command args).run.Uses Ask.MakesNone := by
      refine Command.run_uses (Command.makesNone ?_)
      rintro (⟨h', -⟩ | ⟨h', -⟩ | ⟨-, rest, rfl⟩)
      · simp [VirtualBox.command] at h'
      · simp [VirtualBox.command] at h'
      · exact h rfl
    have hbridge : (VirtualBox.bridgeAndStart c vm.name).Uses Ask.MakesNone := by
      refine (quiet (by simp)).bind fun result => ?_
      rcases result with f | output
      · trivial
      refine (quiet (by simp)).bind fun result => ?_
      cases result <;> trivial
    refine hbridge.bind fun result => ?_
    rcases result with f | output
    · exact (quiet (by simp)).bind fun _ => trivial
    · trivial

end Tooled
end PodMachines
