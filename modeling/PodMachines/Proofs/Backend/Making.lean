import PodMachines.Proofs.Backend.Booted
import PodMachines.Proofs.Backend.Polling

/-! Which tools are called to make a machine, to look for its addresses and to end it, in which order, and what comes of
    it: one constructor for every way in which each can go. -/

namespace PodMachines
open Backend Program

/-- The tool calls of a talk, each with what became of it. -/
def toolCalls (talk : Talk Ask Ask.Reply) : List (Command × Except String Ended) :=
  talk.filterMap fun
    | ⟨.run command, reply⟩ => some (command, reply)
    | _ => none

@[simp] theorem toolCalls_nil : toolCalls [] = [] := rfl

@[simp] theorem toolCalls_run (command : Command) (reply : Except String Ended) (talk : Talk Ask Ask.Reply) :
    toolCalls (⟨.run command, reply⟩ :: talk) = (command, reply) :: toolCalls talk := rfl

@[simp] theorem toolCalls_append (talk more : Talk Ask Ask.Reply) :
    toolCalls (talk ++ more) = toolCalls talk ++ toolCalls more :=
  List.filterMap_append

theorem toolCalls_eq_nil {talk : Talk Ask Ask.Reply} (h : ∀ x ∈ talk, ∀ command, x.1 ≠ .run command) :
    toolCalls talk = [] := by
  refine List.filterMap_eq_nil_iff.mpr ?_
  rintro ⟨q, reply⟩ hmem
  cases q with
  | run command => exact absurd rfl (h _ hmem command)
  | _ => rfl

section
variable {α β : Type} {command : Command} {talk : Talk Ask Ask.Reply} {left : Work β} {b : β}

theorem Command.leads_run {next : Except CommandFailure String → Work β} :
    (command.run.bind next).Leads talk (.done b) ↔
      ∃ reply rest, talk = ⟨.run command, reply⟩ :: rest ∧ (next (command.result reply)).Leads rest (.done b) :=
  leads_ask_done

theorem Command.leads_runJson [Doc.Parsers] (decode : Doc.Decode α) {next : Except CommandFailure α → Work β} :
    ((command.runJson decode).bind next).Leads talk (.done b) ↔
      ∃ reply rest, talk = ⟨.run command, reply⟩ :: rest ∧
        (next (command.decoded decode reply)).Leads rest (.done b) := by
  rw [runJson_bind]
  exact leads_ask_done

theorem Command.leads_last {next : Except CommandFailure String → Work β} (hn : ∀ result, ∃ b, next result = .done b)
    (h : (command.run.bind next).Leads talk (.done b)) : ∃ reply, talk = [⟨.run command, reply⟩] := by
  obtain ⟨reply, rest, rfl, hrest⟩ := leads_run.mp h
  obtain ⟨b', hb⟩ := hn (command.result reply)
  rw [hb] at hrest
  obtain ⟨rfl, -⟩ := leads_done.mp hrest
  exact ⟨reply, rfl⟩

end

/-! ### VirtualBox -/

namespace Backend.VirtualBox

def clone (c : Config.VirtualBox) (vm : Machine.Spec) : Command :=
  command ["clonevm", c.vmSrc, "--name", vm.name, "--register"]

def bridge (c : Config.VirtualBox) (id : String) : Command :=
  command ["modifyvm", id, "--nic1", "bridged", "--bridgeadapter1", c.netDevice]

def launch (id : String) : Command :=
  command ["startvm", id, "--type", "headless"]

def powerOff (id : String) : Command :=
  command ["controlvm", id, "poweroff"]

def deletion (id : String) : Command :=
  command ["unregistervm", id, "--delete"]

/-- A clone that is not bridged or not started is deleted; how that ends is no matter. -/
inductive Making (c : Config.VirtualBox) (vm : Machine.Spec) :
    List (Command × Except String Ended) → Except Failure Machine.Handle → Prop
  | uncloned {r : Except String Ended} {f : CommandFailure} (h : (clone c vm).result r = .error f) :
      Making c vm [(clone c vm, r)] (.error (.provision name f.message))
  | unbridged {r r' : Except String Ended} {output : String} {f : CommandFailure} (h : (clone c vm).result r = .ok output)
      (h' : (bridge c vm.name).result r' = .error f) (gone : Except String Ended) :
      Making c vm [(clone c vm, r), (bridge c vm.name, r'), (deletion vm.name, gone)]
        (.error (.provision name f.message))
  | unstarted {r r' r'' : Except String Ended} {output output' : String} {f : CommandFailure}
      (h : (clone c vm).result r = .ok output) (h' : (bridge c vm.name).result r' = .ok output')
      (h'' : (launch vm.name).result r'' = .error f) (gone : Except String Ended) :
      Making c vm [(clone c vm, r), (bridge c vm.name, r'), (launch vm.name, r''), (deletion vm.name, gone)]
        (.error (.provision name f.message))
  | started {r r' r'' : Except String Ended} {output output' output'' : String}
      (h : (clone c vm).result r = .ok output) (h' : (bridge c vm.name).result r' = .ok output')
      (h'' : (launch vm.name).result r'' = .ok output'') :
      Making c vm [(clone c vm, r), (bridge c vm.name, r'), (launch vm.name, r'')] (.ok ⟨vm.name, vm.name⟩)

/-- Deletes a clone that is of no use, and fails. -/
def abandon (id : String) (f : CommandFailure) : Work (Except Failure Machine.Handle) :=
  (deletion id).run.bind fun _ => .done (.error (.provision name f.message))

theorem provision_eq (c : Config.VirtualBox) (vm : Machine.Spec) :
    provision c vm = (clone c vm).run.bind fun
      | .error f => .done (.error (.provision name f.message))
      | .ok _ => (bridge c vm.name).run.bind fun
        | .error f => abandon vm.name f
        | .ok _ => (launch vm.name).run.bind fun
          | .error f => abandon vm.name f
          | .ok _ => .done (.ok ⟨vm.name, vm.name⟩) := by
  show Program.bind _ _ = _
  congr 1
  funext cloned
  rcases cloned with f | output
  · rfl
  show Program.bind (Program.bind _ _) _ = _
  rw [Program.bind_assoc]
  congr 1
  funext bridged
  rcases bridged with f | output
  · rfl
  show Program.bind (Program.bind _ _) _ = _
  rw [Program.bind_assoc]
  congr 1
  funext started
  rcases started with f | output <;> rfl

theorem leads_abandon {id : String} {f : CommandFailure} {talk : Talk Ask Ask.Reply}
    {result : Except Failure Machine.Handle} (h : (abandon id f).Leads talk (.done result)) :
    ∃ gone, talk = [⟨.run (deletion id), gone⟩] ∧ result = .error (.provision name f.message) := by
  obtain ⟨gone, rest, rfl, hgone⟩ := Command.leads_run.mp h
  obtain ⟨rfl, rfl⟩ := leads_done_done.mp hgone
  exact ⟨gone, rfl, rfl⟩

theorem making_of_leads {c : Config.VirtualBox} {vm : Machine.Spec} {talk : Talk Ask Ask.Reply}
    {result : Except Failure Machine.Handle} (h : (provision c vm).Leads talk (.done result)) :
    Making c vm (toolCalls talk) result := by
  rw [provision_eq] at h
  obtain ⟨r, rest, rfl, hcloned⟩ := Command.leads_run.mp h
  rcases hr : (clone c vm).result r with f | output <;> simp only [hr] at hcloned
  · obtain ⟨rfl, rfl⟩ := leads_done_done.mp hcloned
    exact .uncloned hr
  obtain ⟨r', rest, rfl, hbridged⟩ := Command.leads_run.mp hcloned
  rcases hr' : (bridge c vm.name).result r' with f | output' <;> simp only [hr'] at hbridged
  · obtain ⟨gone, rfl, rfl⟩ := leads_abandon hbridged
    exact .unbridged hr hr' gone
  obtain ⟨r'', rest, rfl, hstarted⟩ := Command.leads_run.mp hbridged
  rcases hr'' : (launch vm.name).result r'' with f | output'' <;> simp only [hr''] at hstarted
  · obtain ⟨gone, rfl, rfl⟩ := leads_abandon hstarted
    exact .unstarted hr hr' hr'' gone
  · obtain ⟨rfl, rfl⟩ := leads_done_done.mp hstarted
    exact .started hr hr' hr''

/-- One poll or more; all but the last show no address, and the last decides. -/
inductive Looking (c : Config.VirtualBox) (id : String) :
    List (Command × Except String Ended) → Except Failure (List Address) → Prop
  | found {r : Except String Ended} {address : Address} (h : shown id r = .ok (some address)) :
      Looking c id [(propertyQuery id, r)] (.ok [address])
  | failed {r : Except String Ended} {f : CommandFailure} (h : shown id r = .error f) :
      Looking c id [(propertyQuery id, r)] (.error (.network id f.message))
  | late {r : Except String Ended} (h : shown id r = .ok none) :
      Looking c id [(propertyQuery id, r)] (.error (noAddress c id))
  | again {r : Except String Ended} {calls : List (Command × Except String Ended)}
      {result : Except Failure (List Address)} (h : shown id r = .ok none) (more : Looking c id calls result) :
      Looking c id ((propertyQuery id, r) :: calls) result

theorem looking_of_poll {c : Config.VirtualBox} {id : String} {deadline : Nat} (most : Nat) {talk : Talk Ask Ask.Reply}
    {result : Except Failure (List Address)} (h : (poll c id deadline (most + 1)).Leads talk (.done result)) :
    Looking c id (toolCalls talk) result := by
  rw [poll_succ] at h
  obtain ⟨r, rest, rfl, hshown⟩ := leads_ask_done.mp h
  rcases hr : shown id r with f | (_ | address) <;> simp only [hr] at hshown
  · obtain ⟨rfl, rfl⟩ := leads_done_done.mp hshown
    exact .failed hr
  · obtain ⟨now, rest, rfl, hnow⟩ := leads_ask_done.mp hshown
    split at hnow
    · obtain ⟨rfl, rfl⟩ := leads_done_done.mp hnow
      exact .late hr
    · obtain ⟨slept, rest, rfl, hmore⟩ := leads_ask_done.mp hnow
      cases most with
      | zero =>
        obtain ⟨rfl, rfl⟩ := leads_done_done.mp hmore
        exact .late hr
      | succ most =>
        have ih := looking_of_poll most hmore
        exact .again hr ih
  · obtain ⟨rfl, rfl⟩ := leads_done_done.mp hshown
    exact .found hr

theorem looking_of_leads {c : Config.VirtualBox} {id : String} {talk : Talk Ask Ask.Reply}
    {result : Except Failure (List Address)} (h : (addresses c id).Leads talk (.done result)) :
    Looking c id (toolCalls talk) result := by
  obtain ⟨now, rest, rfl, hnow⟩ := leads_ask_done.mp h
  change Leads (Program.bind (if _ then Program.done _ else Program.crash _) _) _ _ at hnow
  split at hnow
  · have hlooking := looking_of_poll ((c.ipWaitSecs.toNat + 1) / 2) hnow
    exact hlooking
  · cases hnow

end Backend.VirtualBox

/-! ### EC2 -/

namespace Backend.Ec2
variable [Doc.Parsers]

def await (c : Config.Ec2) (id : String) : Command :=
  command c ["ec2", "wait", "instance-running"] ["--instance-ids", id]

def query (c : Config.Ec2) (id : String) : Command :=
  command c ["ec2", "describe-instances"] ["--instance-ids", id]

def deletion (c : Config.Ec2) (id : String) : Command :=
  command c ["ec2", "terminate-instances"] ["--instance-ids", id]

/-- An instance that never runs is terminated; how that ends is no matter. -/
inductive Making (c : Config.Ec2) (vm : Machine.Spec) :
    List (Command × Except String Ended) → Except Failure Machine.Handle → Prop
  | unlaunched {r : Except String Ended} {f : CommandFailure} (h : (launch c vm).decoded launched r = .error f) :
      Making c vm [(launch c vm, r)] (.error (.provision name f.message))
  | none {r : Except String Ended} (h : (launch c vm).decoded launched r = .ok []) :
      Making c vm [(launch c vm, r)] (.error (.provision name "run-instances returned no instance"))
  | unstarted {r r' : Except String Ended} {id : String} {ids : List String} {f : CommandFailure}
      (h : (launch c vm).decoded launched r = .ok (id :: ids)) (h' : (await c id).result r' = .error f)
      (gone : Except String Ended) :
      Making c vm [(launch c vm, r), (await c id, r'), (deletion c id, gone)] (.error (.provision name f.message))
  | started {r r' : Except String Ended} {id output : String} {ids : List String}
      (h : (launch c vm).decoded launched r = .ok (id :: ids)) (h' : (await c id).result r' = .ok output) :
      Making c vm [(launch c vm, r), (await c id, r')] (.ok ⟨id, vm.name⟩)

theorem making_of_leads {c : Config.Ec2} {vm : Machine.Spec} {talk : Talk Ask Ask.Reply}
    {result : Except Failure Machine.Handle} (h : (provision c vm).Leads talk (.done result)) :
    Making c vm (toolCalls talk) result := by
  obtain ⟨r, rest, rfl, hlaunched⟩ := (Command.leads_runJson launched).mp h
  rcases hr : (launch c vm).decoded launched r with f | (_ | ⟨id, ids⟩) <;> simp only [hr] at hlaunched
  · obtain ⟨rfl, rfl⟩ := leads_done_done.mp hlaunched
    exact .unlaunched hr
  · obtain ⟨rfl, rfl⟩ := leads_done_done.mp hlaunched
    exact .none hr
  obtain ⟨r', rest, rfl, hwaited⟩ := Command.leads_run.mp hlaunched
  rcases hr' : (await c id).result r' with f | output <;> simp only [await] at hr' <;> simp only [hr'] at hwaited
  · obtain ⟨gone, rest, rfl, hgone⟩ := Command.leads_run.mp hwaited
    obtain ⟨rfl, rfl⟩ := leads_done_done.mp hgone
    exact .unstarted hr hr' gone
  · obtain ⟨rfl, rfl⟩ := leads_done_done.mp hwaited
    exact .started hr hr'

/-- One description decides. -/
inductive Looking (c : Config.Ec2) (id : String) :
    List (Command × Except String Ended) → Except Failure (List Address) → Prop
  | undescribed {r : Except String Ended} {f : CommandFailure} (h : (query c id).decoded described r = .error f) :
      Looking c id [(query c id, r)] (.error (.network id f.message))
  | unknown {r : Except String Ended} {instances : List Instance} {why : String}
      (h : (query c id).decoded described r = .ok instances) (h' : select id instances = .error why) :
      Looking c id [(query c id, r)] (.error (.network id why))
  | described {r : Except String Ended} {instances : List Instance} {i : Instance}
      (h : (query c id).decoded described r = .ok instances) (h' : select id instances = .ok i) :
      Looking c id [(query c id, r)] (.ok i.addresses)

theorem looking_of_leads {c : Config.Ec2} {machine : Machine.Handle} {talk : Talk Ask Ask.Reply}
    {result : Except Failure (List Address)} (h : (serve c (.addresses machine)).Leads talk (.done result)) :
    Looking c machine.id (toolCalls talk) result := by
  obtain ⟨first, rest, found, rfl, hfound, hrest⟩ := leads_bind_done.mp h
  obtain ⟨r, more, rfl, hdescribed⟩ := (Command.leads_runJson described).mp hfound
  rcases hr : (query c machine.id).decoded described r with f | instances <;> simp only [query] at hr <;>
    simp only [hr] at hdescribed
  · obtain ⟨rfl, rfl⟩ := leads_done_done.mp hdescribed
    obtain ⟨rfl, rfl⟩ := leads_done_done.mp hrest
    exact .undescribed hr
  · obtain ⟨rfl, rfl⟩ := leads_done_done.mp hdescribed
    rcases hs : select machine.id instances with why | i <;> simp only [hs] at hrest
    · obtain ⟨rfl, rfl⟩ := leads_done_done.mp hrest
      exact .unknown hr hs
    · obtain ⟨rfl, rfl⟩ := leads_done_done.mp hrest
      exact .described hr hs

end Backend.Ec2

/-! ### GCE -/

namespace Backend.Gce
variable [Doc.Parsers]

def query (c : Config.Gce) (id : String) : Command :=
  onInstance c "describe" id ["--format=json"]

def deletion (c : Config.Gce) (id : String) : Command :=
  onInstance c "delete" id ["--quiet"]

/-- The one command is all there is. -/
inductive Making (c : Config.Gce) (vm : Machine.Spec) :
    List (Command × Except String Ended) → Except Failure Machine.Handle → Prop
  | uncreated {r : Except String Ended} {f : CommandFailure}
      (h : (create c vm).decoded (.listOf Instance.decode) r = .error f) :
      Making c vm [(create c vm, r)] (.error (.provision Gce.name f.message))
  | created {r : Except String Ended} {made : List Instance}
      (h : (create c vm).decoded (.listOf Instance.decode) r = .ok made) :
      Making c vm [(create c vm, r)]
        (.ok ⟨(made.head?.map Instance.name).getD vm.name, (made.head?.map Instance.name).getD vm.name⟩)

theorem making_of_leads {c : Config.Gce} {vm : Machine.Spec} {talk : Talk Ask Ask.Reply}
    {result : Except Failure Machine.Handle} (h : (provision c vm).Leads talk (.done result)) :
    Making c vm (toolCalls talk) result := by
  obtain ⟨r, rest, rfl, hcreated⟩ := (Command.leads_runJson (.listOf Instance.decode)).mp h
  rcases hr : (create c vm).decoded (.listOf Instance.decode) r with f | made <;> simp only [hr] at hcreated
  · obtain ⟨rfl, rfl⟩ := leads_done_done.mp hcreated
    exact .uncreated hr
  · obtain ⟨rfl, rfl⟩ := leads_done_done.mp hcreated
    exact .created hr

/-- One description decides. -/
inductive Looking (c : Config.Gce) (id : String) :
    List (Command × Except String Ended) → Except Failure (List Address) → Prop
  | undescribed {r : Except String Ended} {f : CommandFailure} (h : (query c id).decoded Instance.decode r = .error f) :
      Looking c id [(query c id, r)] (.error (.network id f.message))
  | described {r : Except String Ended} {i : Instance} (h : (query c id).decoded Instance.decode r = .ok i) :
      Looking c id [(query c id, r)] (.ok i.addresses)

theorem looking_of_leads {c : Config.Gce} {machine : Machine.Handle} {talk : Talk Ask Ask.Reply}
    {result : Except Failure (List Address)} (h : (serve c (.addresses machine)).Leads talk (.done result)) :
    Looking c machine.id (toolCalls talk) result := by
  obtain ⟨first, rest, found, rfl, hfound, hrest⟩ := leads_bind_done.mp h
  obtain ⟨r, more, rfl, hdescribed⟩ := (Command.leads_runJson Instance.decode).mp hfound
  rcases hr : (query c machine.id).decoded Instance.decode r with f | i <;> simp only [query] at hr <;>
    simp only [hr] at hdescribed
  · obtain ⟨rfl, rfl⟩ := leads_done_done.mp hdescribed
    obtain ⟨rfl, rfl⟩ := leads_done_done.mp hrest
    exact .undescribed hr
  · obtain ⟨rfl, rfl⟩ := leads_done_done.mp hdescribed
    obtain ⟨rfl, rfl⟩ := leads_done_done.mp hrest
    exact .described hr

end Backend.Gce

/-! ### Any of them -/

namespace Tooled
variable [Doc.Parsers]

/-- Which tools making a machine calls, and what comes of it. -/
def Making (b : Tooled) (vm : Machine.Spec) (calls : List (Command × Except String Ended))
    (result : Except Failure Machine.Handle) : Prop :=
  match b with
  | ec2 c => Ec2.Making c vm calls result
  | gce c => Gce.Making c vm calls result
  | virtualBox c => VirtualBox.Making c vm calls result

/-- Which tools looking for the addresses of a machine calls, and what comes of it. -/
def Looking (b : Tooled) (id : String) (calls : List (Command × Except String Ended))
    (result : Except Failure (List Address)) : Prop :=
  match b with
  | ec2 c => Ec2.Looking c id calls result
  | gce c => Gce.Looking c id calls result
  | virtualBox c => VirtualBox.Looking c id calls result

variable {b : Tooled} {talk : Talk Ask Ask.Reply}

theorem making_of_leads {vm : Machine.Spec} {result : Except Failure Machine.Handle}
    (h : (b.backend.serve (.provision vm)).Leads talk (.done result)) : b.Making vm (toolCalls talk) result := by
  cases b with
  | ec2 c => exact Ec2.making_of_leads h
  | gce c => exact Gce.making_of_leads h
  | virtualBox c => exact VirtualBox.making_of_leads h

theorem looking_of_leads {machine : Machine.Handle} {result : Except Failure (List Address)}
    (h : (b.backend.serve (.addresses machine)).Leads talk (.done result)) :
    b.Looking machine.id (toolCalls talk) result := by
  cases b with
  | ec2 c => exact Ec2.looking_of_leads h
  | gce c => exact Gce.looking_of_leads h
  | virtualBox c => exact VirtualBox.looking_of_leads h

/-- To end a machine every command for it is run, in order, whatever becomes of the others. -/
theorem ending_of_leads {machine : Machine.Handle} {result : Except Failure Unit}
    (h : (b.backend.serve (.destroy machine)).Leads talk (.done result)) :
    (toolCalls talk).map Prod.fst = b.teardowns machine.id := by
  cases b with
  | ec2 c =>
    obtain ⟨gone, rfl⟩ := Command.leads_last (fun result => by cases result <;> exact ⟨_, rfl⟩) h
    rfl
  | gce c =>
    obtain ⟨gone, rfl⟩ := Command.leads_last (fun result => by cases result <;> exact ⟨_, rfl⟩) h
    rfl
  | virtualBox c =>
    obtain ⟨off, rest, rfl, hoff⟩ := Command.leads_run.mp h
    obtain ⟨gone, rfl⟩ := Command.leads_last (fun result => by cases result <;> exact ⟨_, rfl⟩) hoff
    rfl

end Tooled
end PodMachines
