import PodMachines.Proofs.Backend.Making

/-! Where the work for a sandbox breaks down. It does so only before a deadline that the clock cannot count: of the search
    for an address, or of the dialing of an agent. -/

namespace PodMachines
open Backend Program

section
variable {α β : Type} {talk : Talk Ask Ask.Reply} {why : String}

theorem Command.run_sturdy (command : Command) : command.run.Sturdy :=
  fun _ => trivial

theorem Command.runJson_sturdy [Doc.Parsers] (command : Command) (decode : Doc.Decode α) :
    (command.runJson decode).Sturdy := by
  refine command.run_sturdy.bind fun result => ?_
  rcases result with f | output
  · trivial
  · dsimp only
    cases Doc.Decode.run decode (Doc.Parsers.json output) <;> trivial

theorem not_leads_crash {p : Work α} (hp : p.Sturdy) : ¬p.Leads talk (.crash why) :=
  fun h => h.sturdy hp

/-- Whether the clock cannot count some milliseconds more than it shows. -/
def Work.Overflows (now milliseconds : Nat) : Prop :=
  clockLimit ≤ (now + milliseconds) / 1000

/-- What breaks down that only its deadline can break has only read the clock. -/
theorem Work.leads_deadline_crash {milliseconds : Nat} {next : Nat → Work β} (hn : ∀ deadline, (next deadline).Sturdy)
    (h : ((Work.deadline milliseconds).bind next).Leads talk (.crash why)) :
    ∃ now : Nat, talk = [⟨.clock, now⟩] ∧ Overflows now milliseconds ∧
      why = "overflow when adding duration to instant" := by
  rcases h with _ | ⟨now, h⟩
  change Leads (Program.bind (if (now + milliseconds) / 1000 < clockLimit then .done _ else .crash _) _) _ _ at h
  split at h
  · exact (not_leads_crash (hn _) h).elim
  · rename_i hlimit
    cases h
    exact ⟨now, rfl, Nat.le_of_not_lt hlimit, rfl⟩

namespace Backend

theorem VirtualBox.poll_sturdy (c : Config.VirtualBox) (id : String) (deadline most : Nat) :
    (poll c id deadline most).Sturdy := by
  induction most with
  | zero => trivial
  | succ most ih =>
    rw [poll_succ]
    intro reply
    dsimp only
    rcases shown id reply with f | (_ | address)
    · trivial
    · intro now
      dsimp only
      split
      · trivial
      · exact fun _ => ih
    · trivial

theorem Ec2.describe_sturdy [Doc.Parsers] (c : Config.Ec2) (id : String) : (describe c id).Sturdy := by
  refine (Command.runJson_sturdy _ _).bind fun result => ?_
  cases result <;> trivial

theorem Gce.describe_sturdy [Doc.Parsers] (c : Config.Gce) (id : String) : (describe c id).Sturdy := by
  refine (Command.runJson_sturdy _ _).bind fun result => ?_
  cases result <;> trivial

end Backend

namespace Tooled
variable [Doc.Parsers] (b : Tooled)

theorem provision_sturdy (vm : Machine.Spec) : (b.backend.serve (.provision vm)).Sturdy := by
  cases b with
  | ec2 c =>
    refine (Command.runJson_sturdy _ _).bind fun result => ?_
    rcases result with f | (_ | ⟨id, ids⟩)
    · trivial
    · trivial
    · refine (Command.run_sturdy _).bind fun result => ?_
      rcases result with f | output
      · exact (Command.run_sturdy _).bind fun _ => trivial
      · trivial
  | gce c =>
    refine (Command.runJson_sturdy _ _).bind fun result => ?_
    cases result <;> trivial
  | virtualBox c =>
    have habandon (f : CommandFailure) : (VirtualBox.abandon vm.name f).Sturdy :=
      (Command.run_sturdy _).bind fun _ => trivial
    show (VirtualBox.provision c vm).Sturdy
    rw [VirtualBox.provision_eq]
    refine (Command.run_sturdy _).bind fun cloned => ?_
    rcases cloned with f | output
    · trivial
    refine (Command.run_sturdy _).bind fun bridged => ?_
    rcases bridged with f | output
    · exact habandon f
    refine (Command.run_sturdy _).bind fun started => ?_
    rcases started with f | output
    · exact habandon f
    · trivial

theorem destroy_sturdy (machine : Machine.Handle) : (b.backend.serve (.destroy machine)).Sturdy := by
  cases b with
  | ec2 c =>
    refine (Command.run_sturdy _).bind fun result => ?_
    cases result <;> trivial
  | gce c =>
    refine (Command.run_sturdy _).bind fun result => ?_
    cases result <;> trivial
  | virtualBox c =>
    refine (Command.run_sturdy _).bind fun _ => ?_
    refine (Command.run_sturdy _).bind fun result => ?_
    cases result <;> trivial

variable {b}

/-- Looking for addresses breaks down only before the first poll, if VirtualBox is to be polled for too long. -/
theorem leads_addresses_crash {machine : Machine.Handle}
    (h : (b.backend.serve (.addresses machine)).Leads talk (.crash why)) :
    ∃ (c : Config.VirtualBox) (now : Nat), b = .virtualBox c ∧ talk = [⟨.clock, now⟩] ∧
      Work.Overflows now (c.ipWaitSecs.toNat * 1000) ∧ why = "overflow when adding duration to instant" := by
  cases b with
  | ec2 c =>
    refine (not_leads_crash ((Ec2.describe_sturdy c machine.id).bind fun found => ?_) h).elim
    cases found <;> trivial
  | gce c =>
    refine (not_leads_crash ((Gce.describe_sturdy c machine.id).bind fun found => ?_) h).elim
    cases found <;> trivial
  | virtualBox c =>
    obtain ⟨now, htalk, hover, hwhy⟩ := Work.leads_deadline_crash (fun deadline => VirtualBox.poll_sturdy ..) h
    exact ⟨c, now, rfl, htalk, hover, hwhy⟩

end Tooled

namespace Agent

theorem Dialer.retry_sturdy (uri : String) (deadline most : Nat) : (retry uri deadline most).Sturdy := by
  induction most with
  | zero =>
    intro reply
    cases reply <;> trivial
  | succ most ih =>
    intro reply
    rcases reply with why | connection
    · intro now
      show Program.Sturdy (if _ then _ else _)
      split
      · exact fun _ => ih
      · trivial
    · trivial

/-- Connecting breaks down only before the agent is dialed, if it is to be dialed for too long. -/
theorem Connector.leads_connect_crash {k : Connector} {address : Address}
    (h : (k.connect address).Leads talk (.crash why)) :
    ∃ (d : Dialer) (now : Nat), k = .dialing d ∧ talk = [⟨.clock, now⟩] ∧ Work.Overflows now d.timeout ∧
      why = "overflow when adding duration to instant" := by
  cases k with
  | meeting =>
    have hmeet : (Connector.meeting.connect address).Sturdy := fun _ => trivial
    exact (not_leads_crash hmeet h).elim
  | dialing d =>
    obtain ⟨now, htalk, hover, hwhy⟩ := Work.leads_deadline_crash (fun deadline => Dialer.retry_sturdy ..) h
    exact ⟨d, now, rfl, htalk, hover, hwhy⟩

end Agent

end
end PodMachines
