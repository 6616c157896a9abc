import PodMachines.Proofs.Backend.Tooled

/-! Polling VirtualBox for an address, in a world in which time passes only while it is waited. The loop keeps no count
    of its own that matters: its waits move the clock up to the deadline. -/

namespace PodMachines

/-- A deadline that the clock can count is that many milliseconds from now. -/
theorem Work.deadline_run {σ : Type} {answer : (q : Ask) → σ → q.Reply × σ} {s : σ} (now : Nat)
    {milliseconds : Nat} (hclock : answer .clock s = (now, s)) (h : (now + milliseconds) / 1000 < clockLimit) :
    (Work.deadline milliseconds).run answer s = (.done (now + milliseconds), s) := by
  show Program.run answer (if ((answer .clock s).1 + milliseconds : Nat) / 1000 < clockLimit then _ else _)
    (answer .clock s).2 = _
  rw [hclock, if_pos h]
  rfl

namespace Backend.VirtualBox

/-- The command of a poll. -/
def propertyQuery (id : String) : Command :=
  command ["guestproperty", "get", id, addressProperty]

/-- What a poll shows: an address, or none yet. -/
def shown (id : String) (reply : Except String Ended) : Except CommandFailure (Option Address) :=
  ((propertyQuery id).result reply).map fun output => (Machine.guestProperty? output).bind Address.ofText?

/-- A world in which commands are run and time passes only in waiting. -/
structure Watch where
  now : Nat
  /-- The commands that were run, and when. -/
  runs : List (Nat × Command)
  slept : Nat
  deriving DecidableEq

namespace Watch

/-- Every command that is run takes the next of the replies. -/
def answer (replies : Nat → Except String Ended) (others : (q : Ask) → q.Reply) :
    (q : Ask) → Watch → q.Reply × Watch
  | .run command, s => (replies s.runs.length, { s with runs := s.runs ++ [(s.now, command)] })
  | .clock, s => (s.now, s)
  | .sleep milliseconds, s => ((), { s with now := s.now + milliseconds, slept := s.slept + milliseconds })
  | q, s => (others q, s)

/-- After some polls with a wait of two seconds after each but possibly the last. -/
def after (start : Nat) (id : String) (polls waits : Nat) : Watch where
  now := start + pollInterval * waits
  runs := (List.range polls).map fun k => (start + pollInterval * k, propertyQuery id)
  slept := pollInterval * waits

end Watch

/-- How polling ends with the poll of a number: it shows an address, it fails, or it is the last one and shows none. -/
inductive Concludes (c : Config.VirtualBox) (id : String) (replies : Nat → Except String Ended) :
    Nat → Except Failure (List Address) → Prop
  | found {k : Nat} {address : Address} (h : shown id (replies k) = .ok (some address)) :
      Concludes c id replies k (.ok [address])
  | failed {k : Nat} {f : CommandFailure} (h : shown id (replies k) = .error f) :
      Concludes c id replies k (.error (.network id f.message))
  | late (h : shown id (replies ((c.ipWaitSecs.toNat + 1) / 2)) = .ok none) :
      Concludes c id replies ((c.ipWaitSecs.toNat + 1) / 2)
        (.error (.network id ("guest did not report an address within " ++ toString c.ipWaitSecs.toNat ++ "s")))

section
variable (c : Config.VirtualBox) (id : String)

/-- A poll ends the polling unless it shows no address before the deadline. -/
theorem poll_succ (deadline most : Nat) :
    poll c id deadline (most + 1) = Program.ask (.run (propertyQuery id)) fun reply =>
      match shown id reply with
      | .error f => .done (.error (.network id f.message))
      | .ok (some address) => .done (.ok [address])
      | .ok none => Program.ask .clock fun (now : Nat) =>
        if deadline ≤ now then .done (.error (noAddress c id))
        else Program.ask (.sleep pollInterval) fun _ => poll c id deadline most := by
  show Program.bind _ _ = _
  rw [Command.run_bind]
  refine congrArg (Program.ask (Ask.run (propertyQuery id))) (funext fun reply => ?_)
  simp only [shown, propertyQuery]
  cases (command ["guestproperty", "get", id, addressProperty]).result reply with
  | error f => rfl
  | ok output =>
    simp only [Except.map]
    cases (Machine.guestProperty? output).bind Address.ofText? with
    | some address => rfl
    | none =>
      refine congrArg (Program.ask Ask.clock) (funext fun now => ?_)
      show (if _ then _ else _) = _
      split <;> rfl

variable (replies : Nat → Except String Ended) (others : (q : Ask) → q.Reply) (start : Nat)

theorem Watch.answer_poll (polls : Nat) :
    answer replies others (.run (propertyQuery id)) (.after start id polls polls) =
      (replies polls, .after start id (polls + 1) polls) := by
  simp only [answer, after, List.length_map, List.length_range, List.range_succ, List.map_append, List.map_cons,
    List.map_nil]

theorem Watch.answer_wait (polls : Nat) :
    answer replies others (.sleep pollInterval) (.after start id (polls + 1) polls) =
      ((), .after start id (polls + 1) (polls + 1)) := by
  simp only [answer, after, Nat.mul_succ, Nat.add_assoc]

theorem poll_run_succ (deadline most polls : Nat) :
    (poll c id deadline (most + 1)).run (Watch.answer replies others) (.after start id polls polls) =
      match shown id (replies polls) with
      | .error f => (.done (.error (.network id f.message)), .after start id (polls + 1) polls)
      | .ok (some address) => (.done (.ok [address]), .after start id (polls + 1) polls)
      | .ok none =>
        if deadline ≤ start + pollInterval * polls then
          (.done (.error (noAddress c id)), .after start id (polls + 1) polls)
        else (poll c id deadline most).run (Watch.answer replies others) (.after start id (polls + 1) (polls + 1)) := by
  rw [poll_succ]
  simp only [Program.run, Watch.answer_poll]
  rcases shown id (replies polls) with f | (_ | address)
  · rfl
  · show Program.run _ (if deadline ≤ start + pollInterval * polls then _ else _) _ = _
    split
    · rfl
    · simp only [Program.run, Watch.answer_wait]
  · rfl

/-- A poll before the deadline is not the last that there may be. -/
theorem polls_lt {polls : Nat} (h : ¬start + c.ipWaitSecs.toNat * 1000 ≤ start + pollInterval * polls) :
    polls < (c.ipWaitSecs.toNat + 1) / 2 := by
  simp only [pollInterval] at h
  omega

/-- From after some polls that showed nothing on, polling comes to its conclusion, if it may go on for long enough. -/
theorem poll_run (most polls : Nat) (hmost : (c.ipWaitSecs.toNat + 1) / 2 < polls + most)
    (hpolls : polls ≤ (c.ipWaitSecs.toNat + 1) / 2) (hmute : ∀ k < polls, shown id (replies k) = .ok none) :
    ∃ last result, last ≤ (c.ipWaitSecs.toNat + 1) / 2 ∧ (∀ k < last, shown id (replies k) = .ok none) ∧
      Concludes c id replies last result ∧
      (poll c id (start + c.ipWaitSecs.toNat * 1000) most).run (Watch.answer replies others)
        (.after start id polls polls) = (.done result, .after start id (last + 1) last) := by
  -- By induction on how many polls may follow; the clock stands at a multiple of two seconds after the start.
  induction most generalizing polls with
  | zero => omega
  | succ most ih =>
    rw [poll_run_succ]
    rcases hs : shown id (replies polls) with f | (_ | address)
    · exact ⟨polls, _, hpolls, hmute, .failed hs, rfl⟩
    · by_cases hd : start + c.ipWaitSecs.toNat * 1000 ≤ start + pollInterval * polls
      · obtain rfl : polls = (c.ipWaitSecs.toNat + 1) / 2 := by
          simp only [pollInterval] at hd
          omega
        exact ⟨_, _, hpolls, hmute, .late hs, if_pos hd⟩
      · simp only [if_neg hd]
        refine ih (polls + 1) (by omega) (polls_lt c start hd) fun k hk => ?_
        obtain hk | rfl := Nat.lt_succ_iff_lt_or_eq.mp hk
        · exact hmute k hk
        · exact hs
    · exact ⟨polls, _, hpolls, hmute, .found hs, rfl⟩

/-- More polls that it may make change nothing, once there are enough. -/
theorem poll_run_add (most more polls : Nat) (hmost : (c.ipWaitSecs.toNat + 1) / 2 < polls + most)
    (hpolls : polls ≤ (c.ipWaitSecs.toNat + 1) / 2) :
    (poll c id (start + c.ipWaitSecs.toNat * 1000) (most + more)).run (Watch.answer replies others)
        (.after start id polls polls) =
      (poll c id (start + c.ipWaitSecs.toNat * 1000) most).run (Watch.answer replies others)
        (.after start id polls polls) := by
  induction most generalizing polls with
  | zero => omega
  | succ most ih =>
    rw [Nat.add_right_comm, poll_run_succ, poll_run_succ]
    rcases shown id (replies polls) with f | (_ | address)
    · rfl
    · by_cases hd : start + c.ipWaitSecs.toNat * 1000 ≤ start + pollInterval * polls
      · simp only [if_pos hd]
      · simp only [if_neg hd]
        exact ih (polls + 1) (by omega) (polls_lt c start hd)
    · rfl

/-- Where the clock can count up to the deadline, polling goes on up to it. -/
theorem addresses_run (h : (start + c.ipWaitSecs.toNat * 1000) / 1000 < Work.clockLimit) :
    (addresses c id).run (Watch.answer replies others) (.after start id 0 0) =
      (poll c id (start + c.ipWaitSecs.toNat * 1000) (pollCount c.ipWaitSecs.toNat)).run (Watch.answer replies others)
        (.after start id 0 0) := by
  show Program.run _ (Program.bind _ _) _ = _
  rw [Program.run_bind, Work.deadline_run start rfl h]

end

/-- Polling for an address polls at once and then every two seconds. It ends with the first poll that shows an address or
    fails, else with the first one that is not before the deadline; what bounds the loop besides plays no part. -/
theorem polls_on_schedule (c : Config.VirtualBox) (id : String) (replies : Nat → Except String Ended)
    (others : (q : Ask) → q.Reply) (start : Nat)
    (h : (start + c.ipWaitSecs.toNat * 1000) / 1000 < Work.clockLimit) :
    ∃ last result, last ≤ (c.ipWaitSecs.toNat + 1) / 2 ∧ (∀ k < last, shown id (replies k) = .ok none) ∧
      Concludes c id replies last result ∧
      (addresses c id).run (Watch.answer replies others) ⟨start, [], 0⟩ =
        (.done result, ⟨start + 2000 * last,
          (List.range (last + 1)).map fun k => (start + 2000 * k, propertyQuery id), 2000 * last⟩) ∧
      ∀ more, (poll c id (start + c.ipWaitSecs.toNat * 1000) (pollCount c.ipWaitSecs.toNat + more)).run
          (Watch.answer replies others) ⟨start, [], 0⟩ =
        (addresses c id).run (Watch.answer replies others) ⟨start, [], 0⟩ := by
  have hcount : (c.ipWaitSecs.toNat + 1) / 2 < 0 + pollCount c.ipWaitSecs.toNat := by
    simp only [pollCount]
    omega
  obtain ⟨last, result, hlast, hmute, hends, hrun⟩ := poll_run c id replies others start _ 0 hcount (Nat.zero_le _) nofun
  have haddresses := addresses_run c id replies others start h
  refine ⟨last, result, hlast, hmute, hends, haddresses.trans hrun, fun more => ?_⟩
  exact (poll_run_add c id replies others start _ more 0 hcount (Nat.zero_le _)).trans haddresses.symm

/-- Where nobody else is there to answer. -/
def Watch.nobody : (q : Ask) → q.Reply
  | .run _ | .dial _ => .error "nobody"
  | .clock => 0
  | .sleep _ | .hangUp _ => ()
  | .meet _ | .cloud (.provision _) | .cloud (.destroy _) | .cloud (.addresses _) | .cloud (.state _) =>
    .error (.config "nobody")
  | .browse _ => []

/-- A machine that shows its address four seconds after the start. -/
def Watch.replies (k : Nat) : Except String Ended :=
  .ok ⟨.exit 0, (if k < 2 then "No value set!\n" else "Value: 10.0.2.15\n").toUTF8.toList, []⟩

/-- An odd number of seconds still has a last poll after its end, which may find the address. -/
theorem polls_on_schedule_three :
    (shown "m" (Watch.replies 2)).toOption = some (some (.v4 10 0 2 15)) ∧
    ∃ result, Concludes ⟨"eth0", "base", 3⟩ "m" Watch.replies 2 result ∧
      (addresses ⟨"eth0", "base", 3⟩ "m").run (Watch.answer Watch.replies Watch.nobody) ⟨0, [], 0⟩ =
        (.done result, .after 0 "m" 3 2) := by
  refine ⟨by decide +kernel, ?_⟩
  obtain ⟨last, result, -, -, hends, hrun, -⟩ :=
    polls_on_schedule ⟨"eth0", "base", 3⟩ "m" Watch.replies Watch.nobody 0 (by decide)
  have hnow : ((addresses ⟨"eth0", "base", 3⟩ "m").run (Watch.answer Watch.replies Watch.nobody) ⟨0, [], 0⟩).2.now =
      4000 := by
    decide +kernel
  rw [hrun] at hnow
  obtain rfl : last = 2 := by
    simp only at hnow
    omega
  exact ⟨result, hends, hrun⟩

end Backend.VirtualBox
end PodMachines
