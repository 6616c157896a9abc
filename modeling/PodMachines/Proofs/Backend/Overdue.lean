import PodMachines.Proofs.Backend.Creating

/-! Deadlines in the work for a sandbox. Main statement: it breaks down exactly where it is told a time from which the
    search for an address, or the dialing of an agent, would last longer than the clock can count. -/

namespace PodMachines
open Backend Program

namespace Work

/-- Whole seconds are added to the seconds that the clock shows. -/
theorem overflows_seconds (now seconds : Nat) : Overflows now (seconds * 1000) ↔ clockLimit ≤ now / 1000 + seconds := by
  rw [Overflows, Nat.add_mul_div_right _ _ (by decide)]

/-- What needs a deadline breaks down if the clock cannot count it. -/
theorem deadline_leads_crash {β : Type} {now milliseconds : Nat} (next : Nat → Work β) (h : Overflows now milliseconds) :
    ((Work.deadline milliseconds).bind next).Leads [⟨.clock, now⟩]
      (.crash "overflow when adding duration to instant") := by
  have hcrash : Leads (Program.bind (if (now + milliseconds) / 1000 < clockLimit then .done (now + milliseconds)
      else .crash "overflow when adding duration to instant") next) []
      (.crash "overflow when adding duration to instant") := by
    rw [if_neg (Nat.not_lt_of_le h)]
    exact .rest
  exact .reply _ hcrash

end Work

namespace Tooled
variable [Doc.Parsers] (b : Tooled) (k : Agent.Connector)

/-! ### Deadlines -/

/-- Whether the last that was told of the work for a sandbox is a time from which a deadline of it cannot be counted. The
    machine has been made by then. -/
inductive Overdue (vm : Machine.Spec) : Talk Ask Ask.Reply → Prop
  | looking {making : Talk Ask Ask.Reply} {machine : Machine.Handle} {c : Config.VirtualBox} {now : Nat}
      (hb : b = .virtualBox c) (h : (b.backend.serve (.provision vm)).Leads making (.done (.ok machine)))
      (hover : Work.clockLimit ≤ now / 1000 + c.ipWaitSecs.toNat) : Overdue vm (making ++ [⟨.clock, now⟩])
  | dialing {making looking : Talk Ask Ask.Reply} {machine : Machine.Handle} {address : Address} {rest : List Address}
      {d : Agent.Dialer} {now : Nat} (hk : k = .dialing d)
      (h : (b.backend.serve (.provision vm)).Leads making (.done (.ok machine)))
      (h' : (b.backend.serve (.addresses machine)).Leads looking (.done (.ok (address :: rest))))
      (hover : Work.Overflows now d.timeout) : Overdue vm (making ++ (looking ++ [⟨.clock, now⟩]))

variable {b k} {vm : Machine.Spec} {machine : Machine.Handle} {talk : Talk Ask Ask.Reply} {why : String}

theorem discarding_sturdy (b : Tooled) (machine : Machine.Handle) (f : Failure) : (b.discarding machine f).Sturdy :=
  (b.destroy_sturdy machine).bind fun _ => trivial

theorem leads_addresses_crash_iff : (b.backend.serve (.addresses machine)).Leads talk (.crash why) ↔
    ∃ (c : Config.VirtualBox) (now : Nat), b = .virtualBox c ∧ talk = [⟨.clock, now⟩] ∧
      Work.clockLimit ≤ now / 1000 + c.ipWaitSecs.toNat ∧ why = "overflow when adding duration to instant" := by
  constructor
  · intro h
    obtain ⟨c, now, hb, htalk, hover, hwhy⟩ := leads_addresses_crash h
    exact ⟨c, now, hb, htalk, (Work.overflows_seconds ..).mp hover, hwhy⟩
  · rintro ⟨c, now, rfl, rfl, hover, rfl⟩
    exact Work.deadline_leads_crash _ ((Work.overflows_seconds ..).mpr hover)

theorem leads_connecting_crash_iff {address : Address} : (b.connecting k machine address).Leads talk (.crash why) ↔
    ∃ (d : Agent.Dialer) (now : Nat), k = .dialing d ∧ talk = [⟨.clock, now⟩] ∧ Work.Overflows now d.timeout ∧
      why = "overflow when adding duration to instant" := by
  rw [connecting, leads_bind_crash]
  constructor
  · rintro (h | ⟨first, rest, result, -, -, h⟩)
    · exact Agent.Connector.leads_connect_crash h
    · cases result with
      | ok agent => cases h
      | error f => exact (not_leads_crash (b.discarding_sturdy machine _) h).elim
  · rintro ⟨d, now, rfl, rfl, hover, rfl⟩
    exact .inl (Work.deadline_leads_crash _ hover)

/-- The work for a sandbox breaks down where a deadline of it cannot be counted, and nowhere else. -/
theorem leads_creation_crash_iff : (b.creation k vm).Leads talk (.crash why) ↔
    b.Overdue k vm talk ∧ why = "overflow when adding duration to instant" := by
  constructor
  · intro h
    obtain h | ⟨making, rest, made, rfl, hmade, h⟩ := leads_bind_crash.mp h
    · exact (not_leads_crash (b.provision_sturdy vm) h).elim
    cases made with
    | error f => cases h
    | ok machine =>
      obtain h | ⟨looking, rest, found, rfl, hfound, h⟩ := leads_bind_crash.mp h
      · obtain ⟨c, now, hb, rfl, hover, hwhy⟩ := leads_addresses_crash_iff.mp h
        exact ⟨.looking hb hmade hover, hwhy⟩
      · rcases found with f | (_ | ⟨address, rest⟩)
        · exact (not_leads_crash (b.discarding_sturdy machine _) h).elim
        · exact (not_leads_crash (b.discarding_sturdy machine _) h).elim
        · obtain ⟨d, now, hk, rfl, hover, hwhy⟩ := leads_connecting_crash_iff.mp h
          exact ⟨.dialing hk hmade hfound hover, hwhy⟩
  · rintro ⟨h, rfl⟩
    cases h with
    | @looking _ machine _ now hb hmade hover =>
      have hcrash : (b.backend.serve (.addresses machine)).Leads [⟨.clock, now⟩] (.crash _) :=
        leads_addresses_crash_iff.mpr ⟨_, _, hb, rfl, hover, rfl⟩
      exact leads_bind_crash.mpr (.inr ⟨_, _, _, rfl, hmade, leads_bind_crash.mpr (.inl hcrash)⟩)
    | @dialing _ _ machine address _ _ now hk hmade hfound hover =>
      have hcrash : (b.connecting k machine address).Leads [⟨.clock, now⟩] (.crash _) :=
        leads_connecting_crash_iff.mpr ⟨_, _, hk, rfl, hover, rfl⟩
      exact leads_bind_crash.mpr (.inr ⟨_, _, _, rfl, hmade, leads_bind_crash.mpr (.inr ⟨_, _, _, rfl, hfound, hcrash⟩)⟩)

/-- Which tools have been called then: those that make a machine, and that look for its addresses. -/
theorem Overdue.breaking (h : b.Overdue k vm talk) : b.Breaking k vm (toolCalls talk) := by
  cases h with
  | looking hb h hover =>
    rw [toolCalls_append, show toolCalls [_] = [] from rfl, List.append_nil]
    exact .looking hb (making_of_leads h) ((Work.overflows_seconds ..).mpr hover)
  | dialing hk h h' hover =>
    rw [toolCalls_append, toolCalls_append, show toolCalls [_] = [] from rfl, List.append_nil]
    exact .dialing hk (making_of_leads h) (looking_of_leads h') hover

/-- Up to any point, the tools have been called as they may be for a sandbox: some replies lead on to an end. -/
theorem begins_of_leads {left : Work (Except Failure String)} (h : (b.creation k vm).Leads talk left) :
    b.Begins k vm (toolCalls talk) := by
  obtain ⟨rest, ⟨result, hdone⟩ | ⟨why, hcrash⟩⟩ := exists_end VirtualBox.Watch.nobody left
  · refine ⟨toolCalls rest, .inl ⟨result, ?_⟩⟩
    rw [← toolCalls_append]
    exact creating_of_leads (h.trans hdone)
  · refine ⟨toolCalls rest, .inr ?_⟩
    rw [← toolCalls_append]
    exact (leads_creation_crash_iff.mp (h.trans hcrash)).1.breaking

end Tooled
end PodMachines
