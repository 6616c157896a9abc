import PodMachines.Proofs.Backend.Breaking

/-! The work for a sandbox, from its machine to its agent, as one sequence, and which tools are called for it. Main
    statement: a machine that was made is ended by the end of that work exactly if the sandbox fails. -/

namespace PodMachines
open Backend Program

namespace Tooled
variable [Doc.Parsers]

/-- Which tools are called for a sandbox, and what comes of it. What fails first decides; how the machine ends then is no
    matter. -/
inductive Creating (b : Tooled) (k : Agent.Connector) (vm : Machine.Spec) :
    List (Command × Except String Ended) → Except Failure String → Prop
  | unmade {making : List (Command × Except String Ended)} {f : Failure} (h : b.Making vm making (.error f)) :
      Creating b k vm making (.error f)
  | unaddressed {making looking ending : List (Command × Except String Ended)} {machine : Machine.Handle} {why : Failure}
      (h : b.Making vm making (.ok machine))
      (h' : b.Looking machine.id looking (.error why) ∨
        b.Looking machine.id looking (.ok []) ∧ why = .network machine.id "backend reported no address")
      (hends : ending.map Prod.fst = b.teardowns machine.id) :
      Creating b k vm (making ++ looking ++ ending) (.error why)
  | unconnected {making looking ending : List (Command × Except String Ended)} {machine : Machine.Handle}
      {address : Address} {rest : List Address} {dialing : Talk Ask Ask.Reply} {f : Failure}
      (h : b.Making vm making (.ok machine)) (h' : b.Looking machine.id looking (.ok (address :: rest)))
      (hdials : (k.connect address).Leads dialing (.done (.error f)))
      (hends : ending.map Prod.fst = b.teardowns machine.id) :
      Creating b k vm (making ++ looking ++ ending) (.error (f.asUnreachable address.toText))
  | connected {making looking : List (Command × Except String Ended)} {machine : Machine.Handle} {address : Address}
      {rest : List Address} {dialing : Talk Ask Ask.Reply} {agent : Connection} (h : b.Making vm making (.ok machine))
      (h' : b.Looking machine.id looking (.ok (address :: rest)))
      (hdials : (k.connect address).Leads dialing (.done (.ok agent))) :
      Creating b k vm (making ++ looking) (.ok machine.id)

/-- Which tools have been called when the work for a sandbox breaks down: before the first poll of VirtualBox, or before
    an agent is dialed. -/
inductive Breaking (b : Tooled) (k : Agent.Connector) (vm : Machine.Spec) : List (Command × Except String Ended) → Prop
  | looking {making : List (Command × Except String Ended)} {machine : Machine.Handle} {c : Config.VirtualBox} {now : Nat}
      (hb : b = .virtualBox c) (h : b.Making vm making (.ok machine))
      (hover : Work.Overflows now (c.ipWaitSecs.toNat * 1000)) : Breaking b k vm making
  | dialing {making looking : List (Command × Except String Ended)} {machine : Machine.Handle} {address : Address}
      {rest : List Address} {d : Agent.Dialer} {now : Nat} (hk : k = .dialing d) (h : b.Making vm making (.ok machine))
      (h' : b.Looking machine.id looking (.ok (address :: rest))) (hover : Work.Overflows now d.timeout) :
      Breaking b k vm (making ++ looking)

section
variable {b : Tooled} {calls : List (Command × Except String Ended)} {f : Failure}

theorem Making.asProvision_eq {vm : Machine.Spec} (h : b.Making vm calls (.error f)) (backend : String) :
    f.asProvision backend = f := by
  cases b <;> cases h <;> rfl

theorem Looking.asNetwork_eq {id : String} (h : b.Looking id calls (.error f)) (other : String) :
    f.asNetwork other = f := by
  cases b with
  | ec2 c => cases h <;> rfl
  | gce c => cases h; rfl
  | virtualBox c =>
    -- A poll that shows no address leaves the result to the polls after it.
    generalize hresult : Except.error f = result at h
    induction h with
    | found h => cases hresult
    | failed h => cases hresult; rfl
    | late h => cases hresult; rfl
    | again h more ih => exact ih hresult

end

/-- Whether calls are the first ones of those for a sandbox. -/
def Begins (b : Tooled) (k : Agent.Connector) (vm : Machine.Spec) (calls : List (Command × Except String Ended)) : Prop :=
  ∃ rest, (∃ result, b.Creating k vm (calls ++ rest) result) ∨ b.Breaking k vm (calls ++ rest)

/-! ### The sequence -/

section
variable (b : Tooled) (k : Agent.Connector)

/-- Ends a machine that becomes no sandbox. -/
def discarding (machine : Machine.Handle) (why : Failure) : Work (Except Failure String) :=
  (b.backend.serve (.destroy machine)).bind fun _ => .done (.error why)

def connected (machine : Machine.Handle) (address : Address) : Except Failure Connection → Work (Except Failure String)
  | .ok _ => .done (.ok machine.id)
  | .error f => b.discarding machine (f.asUnreachable address.toText)

def connecting (machine : Machine.Handle) (address : Address) : Work (Except Failure String) :=
  (k.connect address).bind (b.connected machine address)

def addressed (machine : Machine.Handle) : Except Failure (List Address) → Work (Except Failure String)
  | .ok (address :: _) => b.connecting k machine address
  | .ok [] => b.discarding machine (.network machine.id "backend reported no address")
  | .error f => b.discarding machine (f.asNetwork machine.id)

def addressing (machine : Machine.Handle) : Work (Except Failure String) :=
  (b.backend.serve (.addresses machine)).bind (b.addressed k machine)

def provisioned : Except Failure Machine.Handle → Work (Except Failure String)
  | .ok machine => b.addressing k machine
  | .error f => .done (.error (f.asProvision b.backend.name))

/-- All work for a sandbox of a machine. -/
def creation (vm : Machine.Spec) : Work (Except Failure String) :=
  (b.backend.serve (.provision vm)).bind (b.provisioned k)

end

section
variable {b : Tooled} {k : Agent.Connector} {vm : Machine.Spec} {machine : Machine.Handle} {talk : Talk Ask Ask.Reply}

theorem leads_discarding {f : Failure} {result : Except Failure String}
    (h : (b.discarding machine f).Leads talk (.done result)) :
    (toolCalls talk).map Prod.fst = b.teardowns machine.id ∧ result = .error f := by
  obtain ⟨ending, rest, gone, rfl, hgone, hrest⟩ := leads_bind_done.mp h
  obtain ⟨rfl, rfl⟩ := leads_done_done.mp hrest
  rw [List.append_nil]
  exact ⟨ending_of_leads hgone, rfl⟩

omit [Doc.Parsers] in
theorem toolCalls_connect {address : Address} {result : Except Failure Connection}
    (h : (k.connect address).Leads talk (.done result)) : toolCalls talk = [] :=
  toolCalls_eq_nil (h.allowed (k.connect_uses address fun _ h => h))

/-- What the work for a sandbox comes to, and which tools it has called then. -/
theorem creating_of_leads {result : Except Failure String} (h : (b.creation k vm).Leads talk (.done result)) :
    b.Creating k vm (toolCalls talk) result := by
  obtain ⟨making, rest, made, rfl, hmade, h⟩ := leads_bind_done.mp h
  have hmaking := making_of_leads hmade
  rw [toolCalls_append]
  cases made with
  | error f =>
    obtain ⟨rfl, rfl⟩ := leads_done_done.mp h
    rw [toolCalls_nil, List.append_nil, hmaking.asProvision_eq]
    exact .unmade hmaking
  | ok machine =>
    obtain ⟨looking, rest, found, rfl, hfound, h⟩ := leads_bind_done.mp h
    have hlooking := looking_of_leads hfound
    rw [toolCalls_append, ← List.append_assoc]
    rcases found with f | (_ | ⟨address, others⟩)
    · obtain ⟨hends, rfl⟩ := leads_discarding h
      rw [hlooking.asNetwork_eq]
      exact .unaddressed hmaking (.inl hlooking) hends
    · obtain ⟨hends, rfl⟩ := leads_discarding h
      exact .unaddressed hmaking (.inr ⟨hlooking, rfl⟩) hends
    · obtain ⟨dialing, rest, dialed, rfl, hdialed, h⟩ := leads_bind_done.mp h
      rw [toolCalls_append, toolCalls_connect hdialed, List.nil_append]
      cases dialed with
      | error f =>
        obtain ⟨hends, rfl⟩ := leads_discarding h
        exact .unconnected hmaking hlooking hdialed hends
      | ok agent =>
        obtain ⟨rfl, rfl⟩ := leads_done_done.mp h
        rw [toolCalls_nil, List.append_nil]
        exact .connected hmaking hlooking hdialed

end
end Tooled

end PodMachines
