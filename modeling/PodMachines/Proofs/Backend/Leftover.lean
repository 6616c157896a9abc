import PodMachines.Doc.Standard
import PodMachines.Proofs.Backend.Making

/-! What becomes of a machine whose making fails after the command that makes it has ended well. EC2 and VirtualBox delete
    it, once, before they give up. GCE never deletes one, and gives up where it cannot read what the command printed. -/

namespace PodMachines
open Backend Program

namespace Tooled

/-- The command that deletes the machine of an id. -/
def deletion : Tooled → String → Command
  | ec2 c, id => Ec2.deletion c id
  | gce c, id => Gce.deletion c id
  | virtualBox _, id => VirtualBox.deletion id

/-- The id of the machine that there is once the command that makes one has ended well: for EC2 the first one that it
    printed, else the name that was asked for. -/
def made [Doc.Parsers] (b : Tooled) (vm : Machine.Spec) (reply : Except String Ended) : Option String :=
  match b with
  | ec2 c => ((Ec2.launch c vm).decoded Ec2.launched reply).toOption.bind List.head?
  | gce c => ((Gce.create c vm).result reply).toOption.map fun _ => vm.name
  | virtualBox c => ((VirtualBox.clone c vm).result reply).toOption.map fun _ => vm.name

/-- The one deletion of a machine, as the last of some tool calls. -/
def Deleted (b : Tooled) (id : String) (calls : List (Command × Except String Ended)) : Prop :=
  ∃ before gone, calls = before ++ [(b.deletion id, gone)] ∧ ∀ x ∈ before, ¬x.1.Ends

end Tooled

section
variable [Doc.Parsers] {vm : Machine.Spec} {calls : List (Command × Except String Ended)} {f : Failure}

theorem Backend.Ec2.Making.deleted {c : Config.Ec2} (h : Ec2.Making c vm calls (.error f)) :
    ∃ reply rest, calls = (Ec2.launch c vm, reply) :: rest ∧
      ∀ id, (Tooled.ec2 c).made vm reply = some id → (Tooled.ec2 c).Deleted id rest := by
  cases h with
  | @unlaunched r f h =>
    refine ⟨r, [], rfl, fun id hid => ?_⟩
    simp only [Tooled.made, h, Except.toOption, Option.bind_none, reduceCtorEq] at hid
  | @none r h =>
    refine ⟨r, [], rfl, fun id hid => ?_⟩
    simp only [Tooled.made, h, Except.toOption, Option.bind_some, List.head?_nil, reduceCtorEq] at hid
  | @unstarted r r' id ids f h h' gone =>
    refine ⟨r, _, rfl, fun id' hid => ?_⟩
    simp only [Tooled.made, h, Except.toOption, Option.bind_some, List.head?_cons, Option.some.injEq] at hid
    subst hid
    refine ⟨[(Ec2.await c id, r')], gone, rfl, fun x hx => ?_⟩
    obtain rfl := List.mem_singleton.mp hx
    simp [Command.Ends, Ec2.await, Ec2.command]

theorem Backend.VirtualBox.Making.deleted {c : Config.VirtualBox} (h : VirtualBox.Making c vm calls (.error f)) :
    ∃ reply rest, calls = (VirtualBox.clone c vm, reply) :: rest ∧
      ∀ id, (Tooled.virtualBox c).made vm reply = some id → (Tooled.virtualBox c).Deleted id rest := by
  have named {reply : Except String Ended} {id : String} (h : (Tooled.virtualBox c).made vm reply = some id) :
      vm.name = id := by
    obtain ⟨output, -, rfl⟩ := Option.map_eq_some_iff.mp h
    rfl
  have spares {args : List String} (h : args.head? = some "modifyvm" ∨ args.head? = some "startvm") :
      ¬(VirtualBox.command args).Ends := by
    rintro (⟨h', -⟩ | ⟨h', -⟩ | ⟨-, ⟨rest, rfl⟩ | ⟨id, rest, rfl⟩⟩)
    · simp [VirtualBox.command] at h'
    · simp [VirtualBox.command] at h'
    · simp at h
    · simp at h
  cases h with
  | @uncloned r f h =>
    refine ⟨r, [], rfl, fun id hid => ?_⟩
    simp only [Tooled.made, h, Except.toOption, Option.map_none, reduceCtorEq] at hid
  | @unbridged r r' output f h h' gone =>
    refine ⟨r, _, rfl, fun id hid => ?_⟩
    obtain rfl := named hid
    refine ⟨[(VirtualBox.bridge c vm.name, r')], gone, rfl, fun x hx => ?_⟩
    obtain rfl := List.mem_singleton.mp hx
    exact spares (.inl rfl)
  | @unstarted r r' r'' output output' f h h' h'' gone =>
    refine ⟨r, _, rfl, fun id hid => ?_⟩
    obtain rfl := named hid
    refine ⟨[(VirtualBox.bridge c vm.name, r'), (VirtualBox.launch vm.name, r'')], gone, rfl, fun x hx => ?_⟩
    obtain rfl | hx := List.mem_cons.mp hx
    · exact spares (.inl rfl)
    · obtain rfl := List.mem_singleton.mp hx
      exact spares (.inr rfl)

/-- GCE fails only where the command failed or printed what cannot be read, and calls nothing else then. -/
theorem Backend.Gce.Making.unread {c : Config.Gce} (h : Gce.Making c vm calls (.error f)) :
    ∃ reply, calls = [(Gce.create c vm, reply)] ∧ ∀ output, (Gce.create c vm).result reply = .ok output →
      ∃ e, Doc.Decode.run (.listOf Gce.Instance.decode) (Doc.Parsers.json output) = .error e ∧
        f = .provision Gce.name ((Gce.create c vm).unparseable e).message := by
  cases h with
  | @uncreated r f h =>
    refine ⟨r, rfl, fun output ho => ?_⟩
    rw [Command.decoded, ho] at h
    cases hd : Doc.Decode.run (.listOf Gce.Instance.decode) (Doc.Parsers.json output) with
    | error e =>
      simp only [hd] at h
      cases h
      exact ⟨e, rfl, rfl⟩
    | ok made =>
      simp only [hd] at h
      cases h

end

/-- Making a machine that fails begins with the command that makes it. If that has made a machine, the machine is deleted
    by the last tool call, and by no other; but GCE only fails then because it cannot read what the command printed, and
    leaves the machine. -/
theorem deleted_unless_unread [Doc.Parsers] (b : Tooled) (vm : Machine.Spec) {talk : Talk Ask Ask.Reply} {f : Failure}
    (h : (b.backend.serve (.provision vm)).Leads talk (.done (.error f))) :
    ∃ reply rest, toolCalls talk = (b.creating vm, reply) :: rest ∧ ∀ id, b.made vm reply = some id →
      b.Deleted id rest ∨
        ∃ c output e, b = .gce c ∧ rest = [] ∧ (Gce.create c vm).result reply = .ok output ∧
          Doc.Decode.run (.listOf Gce.Instance.decode) (Doc.Parsers.json output) = .error e ∧
          f = .provision Gce.name ((Gce.create c vm).unparseable e).message := by
  have hmaking := Tooled.making_of_leads h
  cases b with
  | ec2 c =>
    obtain ⟨reply, rest, hcalls, hdeleted⟩ := Ec2.Making.deleted hmaking
    exact ⟨reply, rest, hcalls, fun id hid => .inl (hdeleted id hid)⟩
  | virtualBox c =>
    obtain ⟨reply, rest, hcalls, hdeleted⟩ := VirtualBox.Making.deleted hmaking
    exact ⟨reply, rest, hcalls, fun id hid => .inl (hdeleted id hid)⟩
  | gce c =>
    obtain ⟨reply, hcalls, hunread⟩ := Gce.Making.unread hmaking
    refine ⟨reply, [], hcalls, fun id hid => .inr ?_⟩
    rcases ho : (Gce.create c vm).result reply with g | output
    · simp only [Tooled.made, ho, Except.toOption, Option.map_none, reduceCtorEq] at hid
    · obtain ⟨e, he, hf⟩ := hunread output ho
      exact ⟨c, output, e, rfl, rfl, ho, he, hf⟩

namespace Leftover

def vm : Machine.Spec :=
  ⟨"vm-a", none⟩

def virtualBox : Tooled :=
  .virtualBox ⟨"eth0", "base", 300⟩

def gce : Tooled :=
  .gce ⟨"image", "zone", "project", "scope", "key", "network", "subnet", "type"⟩

/-- What a tool printed that ended well. -/
def prints (text : String) : Except String Ended :=
  .ok ⟨.exit 0, text.toUTF8.toList, []⟩

def fails : Except String Ended :=
  .ok ⟨.exit 1, [], []⟩

end Leftover

open Leftover in
/-- A clone that is not bridged is deleted. -/
theorem deleted_unless_unread_clone : ∃ talk f rest,
    (virtualBox.backend.serve (.provision vm)).Leads talk (.done (.error f)) ∧
      toolCalls talk = (virtualBox.creating vm, prints "") :: rest ∧ virtualBox.Deleted "vm-a" rest := by
  have h : (virtualBox.backend.serve (.provision vm)).Leads
      [⟨.run (virtualBox.creating vm), prints ""⟩, ⟨.run (VirtualBox.command _), fails⟩,
        ⟨.run (virtualBox.deletion "vm-a"), fails⟩] (.done (.error _)) := .reply _ (.reply _ (.reply _ .rest))
  obtain ⟨reply, rest, hcalls, hmade⟩ := deleted_unless_unread virtualBox vm h
  cases hcalls
  obtain hdeleted | ⟨c, -, -, hgce, -⟩ := hmade "vm-a" rfl
  · exact ⟨_, _, _, h, rfl, hdeleted⟩
  · cases hgce

open Leftover in
/-- An instance is left behind where the command that has made it prints no document. -/
theorem instance_left_behind : ∃ talk f, (gce.backend.serve (.provision vm)).Leads talk (.done (.error f)) ∧
    toolCalls talk = [(gce.creating vm, prints "Created [vm-a].")] ∧
    gce.made vm (prints "Created [vm-a].") = some "vm-a" := by
  have hunread : ((gce.creating vm).decoded (.listOf Gce.Instance.decode) (prints "Created [vm-a].")).toOption =
      none := by
    decide +kernel
  refine ⟨[⟨.run (gce.creating vm), prints "Created [vm-a]."⟩], ?_⟩
  rcases hd : (gce.creating vm).decoded (.listOf Gce.Instance.decode) (prints "Created [vm-a].") with f | created
  · refine ⟨.provision Gce.name f.message, ?_, rfl, rfl⟩
    show Leads (Program.bind _ _) _ _
    rw [Command.runJson_bind]
    refine leads_ask_done.mpr ⟨prints "Created [vm-a].", [], rfl, ?_⟩
    simp only [gce, Tooled.creating] at hd
    simp only [hd]
    exact .rest
  · rw [hd] at hunread
    cases hunread

end PodMachines
