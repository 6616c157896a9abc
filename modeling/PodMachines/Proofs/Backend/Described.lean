import Mathlib.Data.List.Basic
import PodMachines.Proofs.Backend.Overdue
import PodMachines.Proofs.Doc.Record

/-! What the clouds' tools describe of a machine, and what the work for a sandbox makes of it. Main statements: what EC2
    answers of a machine is decided by the first described instance of its id, and by nothing else that is described;
    and once a cloud's tool has described a machine, its agent is looked for at the preferred address of it, or the
    machine is ended if it has none. -/

namespace PodMachines

section
open Doc
variable {α γ : Type} (f : α → γ) (record : Record α)

theorem Doc.Decode.run_map (doc : Events) :
    Decode.run (record.map f).decode doc = (Decode.run record.decode doc).map f := by
  simp only [run, Record.decode_map]
  cases record.decode doc doc.events with
  | error e => rfl
  | ok x =>
    show (if doc.intact && x.2.isEmpty then _ else _) = Except.map f (if doc.intact && x.2.isEmpty then _ else _)
    split <;> rfl

theorem Command.decoded_map [Parsers] (c : Command) (reply : Except String Ended) :
    c.decoded (record.map f).decode reply = (c.decoded record.decode reply).map f := by
  unfold decoded
  cases c.result reply with
  | error e => rfl
  | ok output =>
    dsimp only
    rw [Decode.run_map]
    cases Decode.run record.decode (Parsers.json output) <;> rfl

end

namespace Backend
open Doc Program

section
variable {α β δ : Type}

/-- What of a description is sought, or why there is none. -/
def sought (pick : δ → Except String α) : Except CommandFailure δ → Except String α
  | .error f => .error f.message
  | .ok description => pick description

/-- What is answered of what was sought. -/
def answered (of : α → β) (lost : String → Failure) : Except String α → Except Failure β
  | .ok found => .ok (of found)
  | .error why => .error (lost why)

theorem answered_eq_ok {of : α → β} {lost : String → Failure} {found : Except String α} {b : β} :
    answered of lost found = .ok b ↔ ∃ a, found = .ok a ∧ of a = b := by
  cases found <;> simp [answered]

/-- Work that answers of a description asks for it, and nothing else. -/
theorem runJson_bind_bind [Parsers] {command : Command} {decode : Decode δ} {pick : δ → Except String α} {of : α → β}
    {lost : String → Failure} {describing : Except CommandFailure δ → Work (Except String α)}
    {answering : Except String α → Work (Except Failure β)}
    (hd : ∀ result, describing result = .done (sought pick result))
    (ha : ∀ found, answering found = .done (answered of lost found)) :
    ((command.runJson decode).bind describing).bind answering = Program.ask (.run command) fun reply =>
      .done (answered of lost (sought pick (command.decoded decode reply))) := by
  rw [Program.bind_assoc, Command.runJson_bind]
  refine congrArg (Program.ask (Ask.run command)) (funext fun reply => ?_)
  rw [hd]
  exact ha _

theorem leads_query {command : Command} {answer : Except String Ended → α} {talk : Talk Ask Ask.Reply} {a : α} :
    (Program.ask (Ask.run command) fun reply => .done (answer reply) : Work α).Leads talk (.done a) ↔
      ∃ reply, talk = [⟨.run command, reply⟩] ∧ a = answer reply := by
  rw [leads_ask_done]
  constructor
  · rintro ⟨reply, rest, rfl, hrest⟩
    obtain ⟨rfl, rfl⟩ := leads_done_done.mp hrest
    exact ⟨reply, rfl, rfl⟩
  · rintro ⟨reply, rfl, rfl⟩
    exact ⟨reply, [], rfl, .rest⟩

end

namespace Ec2

/-- The reservations that the tool describes, each with its instances. -/
def reservations : Record (List (List Instance)) :=
  .withDefault "Reservations" [] (.listOf (Record.decode <|
    .withDefault "Instances" [] (.listOf Instance.decode) <| .done id)) <| .done id

variable [Parsers]

/-- The instance of an id that a reply describes, or why there is none. -/
def shown (c : Config.Ec2) (id : String) (reply : Except String Ended) : Except String Instance :=
  sought (fun rs => select id rs.flatten) ((query c id).decoded reservations.decode reply)

/-- What the tool describes are the instances of one reservation after another. -/
theorem sought_described (c : Config.Ec2) (id : String) (reply : Except String Ended) :
    sought (select id) ((query c id).decoded described reply) = shown c id reply := by
  have hmap : (query c id).decoded described reply =
      ((query c id).decoded reservations.decode reply).map List.flatten :=
    (query c id).decoded_map List.flatten reservations reply
  rw [hmap, shown]
  cases (query c id).decoded reservations.decode reply <;> rfl

variable {c : Config.Ec2} {machine : Machine.Handle}

theorem serve_addresses : serve c (.addresses machine) = Program.ask (.run (query c machine.id)) fun reply =>
    .done (answered Instance.addresses (.network machine.id) (shown c machine.id reply)) := by
  simp only [← sought_described]
  exact runJson_bind_bind (fun result => by cases result <;> rfl) fun found => by cases found <;> rfl

theorem serve_state : serve c (.state machine) = Program.ask (.run (query c machine.id)) fun reply =>
    .done (answered (fun i => .ofEc2 i.state) (.backendCall name) (shown c machine.id reply)) := by
  simp only [← sought_described]
  exact runJson_bind_bind (fun result => by cases result <;> rfl) fun found => by cases found <;> rfl

/-! ### Whose description counts -/

theorem shown_eq {id : String} {reply : Except String Ended} {rs : List (List Instance)}
    (h : (query c id).decoded reservations.decode reply = .ok rs) : shown c id reply = select id rs.flatten := by
  rw [shown, h]
  rfl

end Ec2

namespace Gce
variable [Parsers]

/-- The instance that a reply describes, or why there is none. -/
def shown (c : Config.Gce) (id : String) (reply : Except String Ended) : Except String Instance :=
  sought .ok ((query c id).decoded Instance.decode reply)

variable {c : Config.Gce} {machine : Machine.Handle}

theorem serve_addresses : serve c (.addresses machine) = Program.ask (.run (query c machine.id)) fun reply =>
    .done (answered Instance.addresses (.network machine.id) (shown c machine.id reply)) :=
  runJson_bind_bind (fun result => by cases result <;> rfl) fun found => by cases found <;> rfl

theorem serve_state : serve c (.state machine) = Program.ask (.run (query c machine.id)) fun reply =>
    .done (answered (fun i => .ofGce i.status) (.backendCall Gce.name) (shown c machine.id reply)) :=
  runJson_bind_bind (fun result => by cases result <;> rfl) fun found => by cases found <;> rfl

end Gce

/-! ### Which address is preferred -/

/-- The private address if it can be read, else the public one if that can. -/
def Ec2.Instance.preferred (i : Ec2.Instance) : Option Address :=
  (i.privateAddress.bind Address.ofText?).or (i.publicAddress.bind Address.ofText?)

theorem Ec2.head?_addresses (i : Ec2.Instance) : i.addresses.head? = i.preferred := by
  rw [Instance.addresses, List.head?_filterMap, Instance.preferred]
  simp only [List.findSome?_cons, List.findSome?_nil]
  rcases i.privateAddress.bind Address.ofText? with _ | address <;>
    rcases i.publicAddress.bind Address.ofText? with _ | other <;> rfl

/-- The first internal address of all interfaces that can be read, else the first external one that can. -/
def Gce.Instance.preferred (i : Gce.Instance) : Option Address :=
  (i.interfaces.findSome? fun x => x.internal.bind Address.ofText?).or
    ((i.interfaces.flatMap Interface.external).findSome? fun text => text.bind Address.ofText?)

theorem Gce.head?_addresses (i : Gce.Instance) : i.addresses.head? = i.preferred := by
  rw [Instance.addresses, List.head?_filterMap, List.findSome?_append, List.findSome?_map]
  rfl

end Backend

namespace Tooled
open Backend Program

/-- The command that asks for an address of a machine. -/
def query : Tooled → String → Command
  | ec2 c, id => Ec2.query c id
  | gce c, id => Gce.query c id
  | virtualBox _, id => VirtualBox.propertyQuery id

variable [Doc.Parsers]

/-- Which address of a machine is preferred by a description of it that a cloud's tool has printed, if any. -/
inductive Locates : Tooled → String → Except String Ended → Option Address → Prop
  | ec2 {c : Config.Ec2} {id : String} {reply : Except String Ended} {rs : List (List Ec2.Instance)}
      (h : (Ec2.query c id).decoded Ec2.reservations.decode reply = .ok rs) :
      Locates (.ec2 c) id reply ((rs.flatten.find? (·.id = id)).bind Ec2.Instance.preferred)
  | gce {c : Config.Gce} {id : String} {reply : Except String Ended} {i : Gce.Instance}
      (h : (Gce.query c id).decoded Gce.Instance.decode reply = .ok i) : Locates (.gce c) id reply i.preferred

section
variable {b : Tooled} {k : Agent.Connector} {vm : Machine.Spec} {machine : Machine.Handle} {id : String}
  {reply : Except String Ended} {found : Option Address}

/-- Whether an answer gives an address first, or none, be it as a failure of the network. -/
def Prefers (id : String) (found : Option Address) : Except Failure (List Address) → Prop
  | .ok addresses => addresses.head? = found
  | .error f => found = none ∧ ∃ why, f = .network id why

theorem Locates.serve_eq (h : b.Locates id reply found) :
    ∃ answer : String → Except String Ended → Except Failure (List Address), Prefers id found (answer id reply) ∧
      ∀ machine, b.backend.serve (.addresses machine) =
        Program.ask (Ask.run (b.query machine.id)) (fun reply => .done (answer machine.id reply)) := by
  cases h with
  | @ec2 c _ _ rs h =>
    refine ⟨fun id reply => answered Ec2.Instance.addresses (.network id) (Ec2.shown c id reply), ?_,
      fun machine => Ec2.serve_addresses⟩
    dsimp only
    rw [Ec2.shown_eq h, Ec2.select]
    cases rs.flatten.find? (·.id = id) with
    | none => exact ⟨rfl, _, rfl⟩
    | some i => exact Ec2.head?_addresses i
  | @gce c _ _ i h =>
    refine ⟨fun id reply => answered Gce.Instance.addresses (.network id) (Gce.shown c id reply), ?_,
      fun machine => Gce.serve_addresses⟩
    dsimp only
    rw [Gce.shown, h]
    exact Gce.head?_addresses i

section
variable {a : Except Failure (List Address)}

theorem Prefers.connects (h : Prefers machine.id found a) {address : Address} (ha : found = some address) :
    b.addressed k machine a = b.connecting k machine address := by
  subst ha
  rcases a with f | (_ | ⟨first, rest⟩)
  · cases h.1
  · cases h
  · cases h
    rfl

theorem Prefers.discards (h : Prefers machine.id found a) (hnone : found = none) :
    ∃ why, b.addressed k machine a = b.discarding machine (.network machine.id why) := by
  subst hnone
  rcases a with f | (_ | ⟨first, rest⟩)
  · obtain ⟨-, why, rfl⟩ := h
    exact ⟨why, rfl⟩
  · exact ⟨_, rfl⟩
  · cases h

end

/-! ### One description is asked for -/

/-- Whether a question is none for a description. -/
def Unasked (b : Tooled) (q : Ask) : Prop :=
  ∀ id, q ≠ .run (b.query id)

theorem Locates.provision_uses (h : b.Locates id reply found) (vm : Machine.Spec) :
    (b.backend.serve (.provision vm)).Uses b.Unasked := by
  cases h with
  | @ec2 c =>
    refine (Command.runJson_uses _ fun id => by simp [query, Ec2.query, Ec2.launch, Ec2.command]).bind fun made => ?_
    rcases made with f | (_ | ⟨first, rest⟩)
    · trivial
    · trivial
    refine (Command.run_uses fun id => by simp [query, Ec2.query, Ec2.command]).bind fun waited => ?_
    cases waited with
    | ok output => trivial
    | error f =>
      exact (Command.run_uses fun id => by simp [query, Ec2.query, Ec2.command]).bind fun _ => trivial
  | @gce c =>
    refine (Command.runJson_uses _ fun id => by simp [query, Gce.query, Gce.create, Gce.onInstance]).bind fun made => ?_
    cases made <;> trivial

theorem Locates.discarding_uses (h : b.Locates id reply found) (machine : Machine.Handle) (why : Failure) :
    (b.discarding machine why).Uses b.Unasked := by
  refine Uses.bind ?_ fun _ => trivial
  cases h with
  | @ec2 c =>
    refine (Command.run_uses fun id => by simp [query, Ec2.query, Ec2.command]).bind fun gone => ?_
    cases gone <;> trivial
  | @gce c =>
    refine (Command.run_uses fun id => by simp [query, Gce.query, Gce.onInstance]).bind fun gone => ?_
    cases gone <;> trivial

theorem Locates.connecting_uses (h : b.Locates id reply found) (k : Agent.Connector) (machine : Machine.Handle)
    (address : Address) : (b.connecting k machine address).Uses b.Unasked := by
  refine (k.connect_uses address fun q hq id => hq _).bind fun dialed => ?_
  cases dialed with
  | ok agent => trivial
  | error f => exact h.discarding_uses machine _

theorem Locates.addressed_uses (h : b.Locates id reply found) (k : Agent.Connector) (machine : Machine.Handle)
    (found : Except Failure (List Address)) : (b.addressed k machine found).Uses b.Unasked := by
  rcases found with f | (_ | ⟨address, rest⟩)
  · exact h.discarding_uses machine _
  · exact h.discarding_uses machine _
  · exact h.connecting_uses k machine address

omit [Doc.Parsers] in
theorem query_inj {id' : String} (h : b.query id = b.query id') : id = id' := by
  cases b <;> simpa [query, Ec2.query, Ec2.command, Gce.query, Gce.onInstance, VirtualBox.propertyQuery,
    VirtualBox.command] using h

omit [Doc.Parsers] in
theorem not_mem_toolCalls {talk : Talk Ask Ask.Reply} (h : ∀ x ∈ talk, b.Unasked x.1) :
    (b.query id, reply) ∉ toolCalls talk := by
  intro hmem
  obtain ⟨⟨q, r⟩, hx, hq⟩ := List.mem_filterMap.mp hmem
  cases q with
  | run command =>
    cases hq
    exact h _ hx id rfl
  | _ => cases hq

/-- How the work for a sandbox goes whose machine was described once. -/
structure Sighted (b : Tooled) (k : Agent.Connector) (vm : Machine.Spec) (machine : Machine.Handle)
    (reply : Except String Ended) (found : Option Address) (making rest : Talk Ask Ask.Reply)
    (left : Work (Except Failure String)) : Prop where
  /-- The machine has been made before. -/
  made : (b.backend.serve (.provision vm)).Leads making (.done (.ok machine))
  /-- Then its agent is looked for at the preferred address. -/
  connects : ∀ {address : Address}, found = some address → (b.connecting k machine address).Leads rest left
  /-- Or the machine is ended, if there is none. -/
  discards : found = none → ∃ why, (b.discarding machine (.network machine.id why)).Leads rest left
  /-- No other description is asked for. -/
  once : ∀ x ∈ making ++ rest, b.Unasked x.1

theorem Locates.sighted (h : b.Locates id reply found) {talk : Talk Ask Ask.Reply}
    {left : Work (Except Failure String)} (hl : (b.creation k vm).Leads talk left)
    (hmem : (b.query id, reply) ∈ toolCalls talk) : ∃ machine making rest, machine.id = id ∧
      talk = making ++ ⟨.run (b.query id), reply⟩ :: rest ∧ b.Sighted k vm machine reply found making rest left := by
  obtain ⟨answer, hprefers, hserve⟩ := h.serve_eq
  obtain ⟨first, hfirst, -⟩ | ⟨making, looking, made, rfl, hmade, hlooking⟩ := leads_bind.mp hl
  · exact absurd hmem (not_mem_toolCalls (hfirst.allowed (h.provision_uses vm)))
  have hmaking := hmade.allowed (h.provision_uses vm)
  rw [toolCalls_append, List.mem_append] at hmem
  replace hmem := hmem.resolve_left (not_mem_toolCalls hmaking)
  cases made with
  | error f =>
    cases hlooking
    cases hmem
  | ok machine =>
    have haddressing : b.addressing k machine = Program.ask (Ask.run (b.query machine.id)) fun reply =>
        b.addressed k machine (answer machine.id reply) := by
      rw [addressing, hserve]
      rfl
    have hlooking : (b.addressing k machine).Leads looking left := hlooking
    rw [haddressing] at hlooking
    rcases hlooking with _ | ⟨r, hrest⟩
    · cases hmem
    rename_i rest
    have hasked := hrest.allowed (h.addressed_uses k machine _)
    rw [toolCalls_run, List.mem_cons] at hmem
    obtain ⟨hquery, rfl⟩ := Prod.mk.inj (hmem.resolve_right (not_mem_toolCalls hasked))
    obtain rfl := query_inj hquery
    refine ⟨machine, making, rest, rfl, rfl, hmade, fun ha => ?_, fun hnone => ?_, fun x hx => ?_⟩
    · rw [← hprefers.connects ha]
      exact hrest
    · obtain ⟨why, hwhy⟩ := hprefers.discards (b := b) (k := k) hnone
      exact ⟨why, hwhy ▸ hrest⟩
    · exact (List.mem_append.mp hx).elim (hmaking x) (hasked x)

end
end Tooled
end PodMachines
