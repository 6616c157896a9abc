import PodMachines.Proofs.Backend.Polling

/-! Dialing an agent, in a world in which every attempt takes a time of its own and time passes otherwise only in
    waiting. The deadline says whether another attempt is begun. It does not say when that one ends. -/

namespace PodMachines.Agent

/-- How the attempts to reach an agent go: how long each takes, and what comes of it. -/
structure Attempts where
  takes : Nat → Nat
  reply : Nat → Except String Connection

namespace Attempts

/-- When an attempt begins, counted from the first one, if each one before it is followed by another. -/
def start (a : Attempts) : Nat → Nat
  | 0 => 0
  | k + 1 => a.start k + a.takes k + Dialer.interval

variable (a : Attempts)

/-- When an attempt ends. -/
def finish (k : Nat) : Nat :=
  a.start k + a.takes k

theorem start_succ (k : Nat) : a.start (k + 1) = a.finish k + Dialer.interval :=
  rfl

theorem interval_mul_le_start (k : Nat) : Dialer.interval * k ≤ a.start k := by
  induction k with
  | zero => exact Nat.le_refl 0
  | succ k ih =>
    rw [start_succ, Nat.mul_succ]
    exact Nat.add_le_add_right (Nat.le_trans ih (Nat.le_add_right ..)) _

/-- Attempts that take no time. -/
def instant (replies : Nat → Except String Connection) : Attempts :=
  ⟨fun _ => 0, replies⟩

theorem start_instant (replies : Nat → Except String Connection) (k : Nat) :
    (instant replies).start k = Dialer.interval * k := by
  induction k with
  | zero => rfl
  | succ k ih => rw [start_succ, finish, ih, Nat.mul_succ]; rfl

end Attempts

/-- A world in which an agent is dialed. -/
structure Line where
  now : Nat
  /-- The places that were dialed, and when. -/
  dials : List (Nat × String)
  slept : Nat
  deriving DecidableEq

namespace Line
variable (a : Attempts) (others : (q : Ask) → q.Reply)

/-- Every attempt is the next one. -/
def answer : (q : Ask) → Line → q.Reply × Line
  | .dial uri, s =>
    (a.reply s.dials.length,
      { s with now := s.now + a.takes s.dials.length, dials := s.dials ++ [(s.now, uri)] })
  | .clock, s => (s.now, s)
  | .sleep milliseconds, s => ((), { s with now := s.now + milliseconds, slept := s.slept + milliseconds })
  | q, s => (others q, s)

/-- Before an attempt, with a wait of two seconds after each one before it. -/
def before (uri : String) (begun k : Nat) : Line where
  now := begun + a.start k
  dials := (List.range k).map fun j => (begun + a.start j, uri)
  slept := Dialer.interval * k

/-- After an attempt, without a wait. -/
def after (uri : String) (begun k : Nat) : Line where
  now := begun + a.finish k
  dials := (List.range (k + 1)).map fun j => (begun + a.start j, uri)
  slept := Dialer.interval * k

variable {a others} {uri : String} {begun k : Nat}

theorem answer_dial : answer a others (.dial uri) (before a uri begun k) = (a.reply k, after a uri begun k) := by
  simp only [answer, before, after, Attempts.finish, List.length_map, List.length_range, List.range_succ,
    List.map_append, List.map_cons, List.map_nil, Nat.add_assoc]

theorem answer_wait :
    answer a others (.sleep Dialer.interval) (after a uri begun k) = ((), before a uri begun (k + 1)) := by
  simp only [answer, before, after, Attempts.start_succ, Nat.mul_succ, Nat.add_assoc]

end Line

namespace Dialer

/-- How dialing for some time ends with the attempt of a number: it succeeds, or it fails when it is too late for
    another one. -/
inductive Concludes (a : Attempts) (timeout : Nat) (uri : String) : Nat → Except Failure Connection → Prop
  | connected {k : Nat} {connection : Connection} (h : a.reply k = .ok connection) :
      Concludes a timeout uri k (.ok connection)
  | unreachable {k : Nat} {why : String} (h : a.reply k = .error why) (late : timeout ≤ a.start (k + 1)) :
      Concludes a timeout uri k (.error (.agentUnreachable uri why))

/-- Whether dialing for some time comes to an attempt: each one before it fails in time for another one. -/
def ComesTo (a : Attempts) (timeout k : Nat) : Prop :=
  ∀ j < k, (∃ why, a.reply j = .error why) ∧ a.start (j + 1) < timeout

section
variable {a : Attempts} {others : (q : Ask) → q.Reply} {timeout : Nat} {uri : String} {begun : Nat}

theorem ComesTo.succ {k : Nat} {why : String} (h : ComesTo a timeout k) (hk : a.reply k = .error why)
    (hstart : a.start (k + 1) < timeout) : ComesTo a timeout (k + 1) := by
  intro j hj
  obtain hj | rfl := Nat.lt_succ_iff_lt_or_eq.mp hj
  · exact h j hj
  · exact ⟨⟨why, hk⟩, hstart⟩

/-- An attempt is the first one, or it begins before the deadline. -/
theorem ComesTo.start_lt {k : Nat} (h : ComesTo a timeout k) (hk : 0 < k) : a.start k < timeout := by
  cases k with
  | zero => exact absurd hk (Nat.lt_irrefl 0)
  | succ j => exact (h j (Nat.lt_succ_self j)).2

/-- There are no more attempts than fit with the waits between them. -/
theorem ComesTo.le {k : Nat} (h : ComesTo a timeout k) : k ≤ timeout / interval := by
  rcases Nat.eq_zero_or_pos k with rfl | hk
  · exact Nat.zero_le _
  · have := Nat.lt_of_le_of_lt (a.interval_mul_le_start k) (h.start_lt hk)
    simp only [interval] at this ⊢
    omega

/-- An attempt ends the dialing unless it fails in time for another one. -/
theorem retry_succ (deadline most : Nat) :
    retry uri deadline (most + 1) = Program.ask (.dial uri) fun (reply : Except String Connection) =>
      match reply with
      | .ok connection => .done (.ok connection)
      | .error why => Program.ask .clock fun (now : Nat) =>
        if now + interval < deadline then Program.ask (.sleep interval) fun _ => retry uri deadline most
        else .done (.error (.agentUnreachable uri why)) := by
  refine congrArg (Program.ask (Ask.dial uri)) (funext fun reply => ?_)
  rcases reply with why | connection
  · refine congrArg (Program.ask Ask.clock) (funext fun now => ?_)
    show (if _ then _ else _) = _
    split <;> rfl
  · rfl

theorem retry_run_succ (most k : Nat) :
    (retry uri (begun + timeout) (most + 1)).run (Line.answer a others) (.before a uri begun k) =
      match a.reply k with
      | .ok connection => (.done (.ok connection), .after a uri begun k)
      | .error why =>
        if a.start (k + 1) < timeout then
          (retry uri (begun + timeout) most).run (Line.answer a others) (.before a uri begun (k + 1))
        else (.done (.error (.agentUnreachable uri why)), .after a uri begun k) := by
  rw [retry_succ]
  simp only [Program.run, Line.answer_dial]
  rcases a.reply k with why | connection
  · have hclock : begun + a.finish k + interval < begun + timeout ↔ a.start (k + 1) < timeout := by
      rw [a.start_succ]
      omega
    show Program.run _ (if begun + a.finish k + interval < begun + timeout then _ else _) _ = _
    by_cases hlate : a.start (k + 1) < timeout
    · rw [if_pos (hclock.mpr hlate)]
      simp only [Program.run, Line.answer_wait, if_pos hlate]
    · rw [if_neg (mt hclock.mp hlate)]
      simp only [if_neg hlate]
      rfl
  · rfl

/-- From before an attempt on, dialing comes to its conclusion, if it may go on for long enough. -/
theorem retry_run (most k : Nat) (hmost : timeout / interval < k + most) (hk : ComesTo a timeout k) :
    ∃ last result, ComesTo a timeout last ∧ Concludes a timeout uri last result ∧
      (retry uri (begun + timeout) most).run (Line.answer a others) (.before a uri begun k) =
        (.done result, .after a uri begun last) := by
  -- By induction on how many attempts may follow. Those that do fit before the deadline, so they never run out.
  induction most generalizing k with
  | zero => exact absurd hmost (Nat.not_lt.mpr hk.le)
  | succ most ih =>
    rw [retry_run_succ]
    rcases hreply : a.reply k with why | connection
    · by_cases hlate : a.start (k + 1) < timeout
      · simp only [if_pos hlate]
        exact ih (k + 1) (by omega) (hk.succ hreply hlate)
      · exact ⟨k, _, hk, .unreachable hreply (Nat.le_of_not_lt hlate), if_neg hlate⟩
    · exact ⟨k, _, hk, .connected hreply, rfl⟩

/-- More attempts that it may make change nothing, once there are enough. -/
theorem retry_run_add (most more k : Nat) (hmost : timeout / interval < k + most) (hk : ComesTo a timeout k) :
    (retry uri (begun + timeout) (most + more)).run (Line.answer a others) (.before a uri begun k) =
      (retry uri (begun + timeout) most).run (Line.answer a others) (.before a uri begun k) := by
  induction most generalizing k with
  | zero => exact absurd hmost (Nat.not_lt.mpr hk.le)
  | succ most ih =>
    rw [Nat.add_right_comm, retry_run_succ, retry_run_succ]
    rcases hreply : a.reply k with why | connection
    · by_cases hlate : a.start (k + 1) < timeout
      · simp only [if_pos hlate]
        exact ih (k + 1) (by omega) (hk.succ hreply hlate)
      · simp only [if_neg hlate]
    · rfl

/-- Where the clock can count up to the deadline, connecting dials up to it; what bounds the attempts besides plays no
    part. -/
theorem connect_run (a : Attempts) (others : (q : Ask) → q.Reply) (d : Dialer) (address : Address) (begun : Nat)
    (h : (begun + d.timeout) / 1000 < Work.clockLimit) :
    ∃ last result, ComesTo a d.timeout last ∧ Concludes a d.timeout (d.uri address) last result ∧
      (d.connect address).run (Line.answer a others) ⟨begun, [], 0⟩ =
        (.done result, .after a (d.uri address) begun last) ∧
      ∀ more, (retry (d.uri address) (begun + d.timeout) (d.attempts + more)).run (Line.answer a others)
          ⟨begun, [], 0⟩ =
        (d.connect address).run (Line.answer a others) ⟨begun, [], 0⟩ := by
  have hcount : d.timeout / interval < 0 + d.attempts := by
    simp only [attempts]
    omega
  have hnone : ComesTo a d.timeout 0 := nofun
  have hconnect : (d.connect address).run (Line.answer a others) ⟨begun, [], 0⟩ =
      (retry (d.uri address) (begun + d.timeout) d.attempts).run (Line.answer a others)
        (.before a (d.uri address) begun 0) := by
    show Program.run _ (Program.bind _ _) _ = _
    rw [Program.run_bind, Work.deadline_run begun rfl h]
    rfl
  obtain ⟨last, result, hlast, hends, hrun⟩ := retry_run d.attempts 0 hcount hnone
  refine ⟨last, result, hlast, hends, hconnect.trans hrun, fun more => ?_⟩
  exact (retry_run_add d.attempts more 0 hcount hnone).trans hconnect.symm

end

/-! ### How long it takes -/

/-- An attempt that fails in time for just one more, which takes all the time that an attempt may. -/
def slowly (timeout : Nat) : Attempts :=
  ⟨fun k => if k = 0 then timeout - (interval + 1) else timeout, fun _ => .error "transport error"⟩

theorem slowly_takes_le (timeout k : Nat) : (slowly timeout).takes k ≤ timeout := by
  show (if k = 0 then _ else _) ≤ _
  split
  · exact Nat.sub_le ..
  · exact Nat.le_refl _

theorem slowly_start {timeout : Nat} (h : interval < timeout) :
    (slowly timeout).start 1 = timeout - 1 ∧ timeout ≤ (slowly timeout).start 2 := by
  have h1 : (slowly timeout).start 1 = 0 + (timeout - (interval + 1)) + interval := rfl
  have h2 : (slowly timeout).start 2 = (slowly timeout).start 1 + timeout + interval := rfl
  simp only [interval] at h h1 h2
  omega

/-- Slow attempts are two, if there is time for the second one. -/
theorem eq_one_of_slowly {timeout last : Nat} {uri : String} {result : Except Failure Connection}
    (h : interval < timeout) (hlast : ComesTo (slowly timeout) timeout last)
    (hends : Concludes (slowly timeout) timeout uri last result) : last = 1 := by
  obtain ⟨h1, h2⟩ := slowly_start h
  have hpos : last ≠ 0 := by
    rintro rfl
    cases hends with
    | connected hreply => exact nomatch hreply
    | unreachable hreply late =>
      rw [h1] at late
      omega
  have htwo : ¬1 < last := fun htwo => Nat.not_lt.mpr h2 (hlast 1 htwo).2
  omega

/-- Where no attempt takes longer than the time for all of them, connecting ends in less than twice that time. It ends
    in time if that is no more than the wait before a second attempt. For any longer time there are attempts with which
    it takes a millisecond less than twice. -/
theorem connect_within_twice (d : Dialer) (address : Address) :
    (∀ (a : Attempts) (others : (q : Ask) → q.Reply) (begun : Nat), (begun + d.timeout) / 1000 < Work.clockLimit →
      (∀ k, a.takes k ≤ d.timeout) →
      ∃ last result, Concludes a d.timeout (d.uri address) last result ∧
        (d.connect address).run (Line.answer a others) ⟨begun, [], 0⟩ =
          (.done result, .after a (d.uri address) begun last) ∧
        a.finish last ≤ 2 * d.timeout - 1 ∧ (d.timeout ≤ interval → a.finish last ≤ d.timeout)) ∧
    (interval < d.timeout → ∃ a : Attempts, (∀ k, a.takes k ≤ d.timeout) ∧
      ∀ (others : (q : Ask) → q.Reply) (begun : Nat), (begun + d.timeout) / 1000 < Work.clockLimit →
        ((d.connect address).run (Line.answer a others) ⟨begun, [], 0⟩).2.now = begun + (2 * d.timeout - 1)) := by
  refine ⟨fun a others begun h htakes => ?_,
    fun hlong => ⟨slowly d.timeout, slowly_takes_le _, fun others begun h => ?_⟩⟩
  · obtain ⟨last, result, hlast, hends, hrun, -⟩ := connect_run a others d address begun h
    refine ⟨last, result, hends, hrun, ?_⟩
    have htake := htakes last
    simp only [Attempts.finish]
    rcases Nat.eq_zero_or_pos last with rfl | hpos
    · have hstart : a.start 0 = 0 := rfl
      omega
    · -- A second attempt begins before the deadline and after a wait.
      have hstart := hlast.start_lt hpos
      have hwait := a.interval_mul_le_start last
      have hinterval := Nat.le_mul_of_pos_right interval hpos
      omega
  · obtain ⟨last, result, hlast, hends, hrun, -⟩ := connect_run (slowly d.timeout) others d address begun h
    obtain rfl := eq_one_of_slowly hlong hlast hends
    rw [hrun]
    show begun + ((slowly d.timeout).start 1 + d.timeout) = _
    rw [(slowly_start hlong).1]
    omega

/-- Thirty seconds for all attempts: one is refused after 27.999 of them, and the next one waits for thirty more. -/
theorem connect_within_twice_slowly :
    (0 + 30000) / 1000 < Work.clockLimit ∧ (∀ k, (slowly 30000).takes k ≤ 30000) ∧ interval < 30000 ∧
    (∃ last result, Concludes (slowly 30000) 30000 "http://10.0.0.4:2375" last result ∧
      (Dialer.connect ⟨2375, 30000⟩ (.v4 10 0 0 4)).run (Line.answer (slowly 30000) Backend.VirtualBox.Watch.nobody)
        ⟨0, [], 0⟩ = (.done result, .after (slowly 30000) "http://10.0.0.4:2375" 0 last) ∧
      (slowly 30000).finish last ≤ 59999) ∧
    ∃ a : Attempts, (∀ k, a.takes k ≤ 30000) ∧
      ((Dialer.connect ⟨2375, 30000⟩ (.v4 10 0 0 4)).run (Line.answer a Backend.VirtualBox.Watch.nobody)
        ⟨0, [], 0⟩).2.now = 59999 := by
  have hlimit : (0 + 30000) / 1000 < Work.clockLimit := by decide
  have hlong : interval < 30000 := by decide
  obtain ⟨hbound, hmet⟩ := connect_within_twice ⟨2375, 30000⟩ (.v4 10 0 0 4)
  obtain ⟨last, result, hends, hrun, hfinish, -⟩ := hbound (slowly 30000) Backend.VirtualBox.Watch.nobody 0 hlimit
    (slowly_takes_le 30000)
  obtain ⟨a, htakes, hnow⟩ := hmet hlong
  exact ⟨hlimit, slowly_takes_le 30000, hlong, ⟨last, result, hends, hrun, hfinish⟩, a, htakes,
    hnow Backend.VirtualBox.Watch.nobody 0 hlimit⟩

/-- Connecting may take almost a minute where all attempts have thirty seconds, and none takes longer. -/
theorem connect_late :
    (∀ k, (slowly 30000).takes k ≤ 30000) ∧
    (Dialer.connect ⟨2375, 30000⟩ (.v4 10 0 0 4)).run (Line.answer (slowly 30000) Backend.VirtualBox.Watch.nobody)
      ⟨0, [], 0⟩ = (.done (.error (.agentUnreachable "http://10.0.0.4:2375" "transport error")),
        ⟨59999, [(0, "http://10.0.0.4:2375"), (29999, "http://10.0.0.4:2375")], 2000⟩) :=
  ⟨slowly_takes_le 30000, rfl⟩

/-! ### When attempts are made -/

/-- How an address stands in a place: brackets are around one of version 6. -/
def host : Address → String
  | .v4 a b c d => Address.toText (.v4 a b c d)
  | .v6 groups => "[" ++ Address.toText (.v6 groups) ++ "]"

theorem uri_eq (d : Dialer) (address : Address) :
    d.uri address = "http://" ++ host address ++ ":" ++ toString d.port := by
  cases address with
  | v4 => rfl
  | v6 groups =>
    have hopen : "http://[" = "http://" ++ "[" := by decide
    have hclose : "]:" = "]" ++ ":" := by decide
    show "http://[" ++ _ ++ "]:" ++ _ = _
    rw [hopen, hclose]
    simp only [host, String.append_assoc]

/-- How many attempts are made at most when they take no time: one for every two seconds that have begun, and one at
    least. -/
def turns (d : Dialer) : Nat :=
  max 1 ((d.timeout + 1999) / 2000)

/-- How connecting ends with the attempt of a number, when attempts take no time: it succeeds, or it fails and is the
    last one. -/
inductive Settles (d : Dialer) (address : Address) (replies : Nat → Except String Connection) :
    Nat → Except Failure Connection → Prop
  | connected {k : Nat} {connection : Connection} (h : replies k = .ok connection) :
      Settles d address replies k (.ok connection)
  | unreachable {why : String} (h : replies (d.turns - 1) = .error why) :
      Settles d address replies (d.turns - 1)
        (.error (.agentUnreachable ("http://" ++ host address ++ ":" ++ toString d.port) why))

section
variable {d : Dialer} {replies : Nat → Except String Connection} {last : Nat}

theorem ComesTo.lt_turns (h : ComesTo (.instant replies) d.timeout last) : last < d.turns := by
  simp only [turns]
  rcases Nat.eq_zero_or_pos last with rfl | hpos
  · omega
  · have hstart := h.start_lt hpos
    rw [Attempts.start_instant, interval] at hstart
    omega

theorem Concludes.settles {address : Address} {result : Except Failure Connection}
    (hlast : ComesTo (.instant replies) d.timeout last)
    (h : Concludes (.instant replies) d.timeout (d.uri address) last result) :
    Settles d address replies last result := by
  cases h with
  | connected h => exact .connected h
  | unreachable h late =>
    obtain rfl : last = d.turns - 1 := by
      have hlt := hlast.lt_turns
      rw [Attempts.start_instant, interval] at late
      simp only [turns] at hlt ⊢
      omega
    rw [uri_eq]
    exact .unreachable h

/-- There is a connection exactly if one of the attempts that fit succeeds. -/
theorem Settles.connected_iff {address : Address} {result : Except Failure Connection}
    (h : Settles d address replies last result) (hlast : ComesTo (.instant replies) d.timeout last) :
    (∃ connection, result = .ok connection) ↔ ∃ k < d.turns, ∃ connection, replies k = .ok connection := by
  cases h with
  | connected h => exact ⟨fun _ => ⟨last, hlast.lt_turns, _, h⟩, fun _ => ⟨_, rfl⟩⟩
  | unreachable h =>
    refine ⟨fun ⟨_, hok⟩ => (nomatch hok), fun ⟨k, hk, connection, hok⟩ => ?_⟩
    have hfailed : ∃ why, replies k = .error why := by
      obtain hlt | rfl := Nat.lt_or_eq_of_le (Nat.le_sub_one_of_lt hk)
      · exact (hlast k hlt).1
      · exact ⟨_, h⟩
    obtain ⟨why, hwhy⟩ := hfailed
    exact nomatch hok.symm.trans hwhy

theorem after_instant (uri : String) (begun : Nat) :
    Line.after (.instant replies) uri begun last =
      ⟨begun + 2000 * last, (List.range (last + 1)).map fun k => (begun + 2000 * k, uri), 2000 * last⟩ := by
  simp only [Line.after, Attempts.finish, Attempts.start_instant, interval]
  rfl

end

/-- When attempts take no time, connecting dials at once and then every two seconds, as long as it is more than that
    from the attempt before to the deadline. The first connection counts, or the last refusal. What bounds the loop
    besides plays no part. -/
theorem dials_on_schedule (d : Dialer) (address : Address) (replies : Nat → Except String Connection)
    (others : (q : Ask) → q.Reply) (begun : Nat) (h : (begun + d.timeout) / 1000 < Work.clockLimit) :
    ∃ last result, last < d.turns ∧ (∀ k < last, ∃ why, replies k = .error why) ∧
      Settles d address replies last result ∧
      ((∃ connection, result = .ok connection) ↔ ∃ k < d.turns, ∃ connection, replies k = .ok connection) ∧
      (d.connect address).run (Line.answer (.instant replies) others) ⟨begun, [], 0⟩ =
        (.done result, ⟨begun + 2000 * last,
          (List.range (last + 1)).map fun k => (begun + 2000 * k, d.uri address), 2000 * last⟩) ∧
      (0 < d.timeout → 2000 * last < d.timeout) ∧
      ∀ more, (retry (d.uri address) (begun + d.timeout) (d.attempts + more)).run
          (Line.answer (.instant replies) others) ⟨begun, [], 0⟩ =
        (d.connect address).run (Line.answer (.instant replies) others) ⟨begun, [], 0⟩ := by
  obtain ⟨last, result, hlast, hends, hrun, hmore⟩ := connect_run (.instant replies) others d address begun h
  have hsettles := hends.settles hlast
  rw [after_instant] at hrun
  refine ⟨last, result, hlast.lt_turns, fun k hk => (hlast k hk).1, hsettles, hsettles.connected_iff hlast, hrun,
    fun htime => ?_, hmore⟩
  have hlt := hlast.lt_turns
  simp only [turns] at hlt
  omega

/-- Four seconds are two attempts: a third one would begin at the deadline. -/
theorem dials_on_schedule_four :
    (0 + 4000) / 1000 < Work.clockLimit ∧ 0 < 4000 ∧
    ∃ last result, last < 2 ∧
      Settles ⟨2375, 4000⟩ (.v6 [0, 0, 0, 0, 0, 0, 0, 1]) (fun k => .error (toString k)) last result ∧
      (Dialer.connect ⟨2375, 4000⟩ (.v6 [0, 0, 0, 0, 0, 0, 0, 1])).run
          (Line.answer (.instant fun k => .error (toString k)) Backend.VirtualBox.Watch.nobody) ⟨0, [], 0⟩ =
        (.done result, ⟨0 + 2000 * last,
          (List.range (last + 1)).map fun k => (0 + 2000 * k, "http://[::1]:2375"), 2000 * last⟩) ∧
      result = .error (.agentUnreachable "http://[::1]:2375" "1") := by
  have hlimit : (0 + 4000) / 1000 < Work.clockLimit := by decide
  obtain ⟨last, result, hlast, -, hsettles, -, hrun, -⟩ := dials_on_schedule ⟨2375, 4000⟩ (.v6 [0, 0, 0, 0, 0, 0, 0, 1])
    (fun k => .error (toString k)) Backend.VirtualBox.Watch.nobody 0 hlimit
  refine ⟨hlimit, by decide, last, result, hlast, hsettles, hrun, ?_⟩
  cases hsettles with
  | connected h => exact nomatch h
  | unreachable h =>
    have hone : turns ⟨2375, 4000⟩ - 1 = 1 := rfl
    rw [hone] at h
    cases h
    rfl

end Dialer
end PodMachines.Agent
