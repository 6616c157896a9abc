import PodMachines.Program

/-! What a computation has asked and been replied, and what is left of it then. -/

namespace PodMachines.Program

/-- Questions with their replies, in order. -/
abbrev Talk (Q : Type) (R : Q → Type) := List ((q : Q) × R q)

/-- What is left of a computation after a talk. -/
inductive Leads {Q : Type} {R : Q → Type} {α : Type} : Program Q R α → Talk Q R → Program Q R α → Prop
  | rest {p : Program Q R α} : Leads p [] p
  | reply {q : Q} {next : R q → Program Q R α} {talk : Talk Q R} {left : Program Q R α} (r : R q)
      (h : Leads (next r) talk left) : Leads (.ask q next) (⟨q, r⟩ :: talk) left

/-- What a run asks and is replied. -/
def talk {Q : Type} {R : Q → Type} {α σ : Type} (answer : (q : Q) → σ → R q × σ) : Program Q R α → σ → Talk Q R
  | .done _, _ | .crash _, _ => []
  | .ask q next, s => ⟨q, (answer q s).1⟩ :: (next (answer q s).1).talk answer (answer q s).2

/-- Whatever is replied, only certain questions are asked. -/
def Uses {Q : Type} {R : Q → Type} {α : Type} (allowed : Q → Prop) : Program Q R α → Prop
  | .done _ | .crash _ => True
  | .ask q next => allowed q ∧ ∀ r, (next r).Uses allowed

/-- Whatever is replied, it comes to nothing but certain values. -/
def Yields {Q : Type} {R : Q → Type} {α : Type} (good : α → Prop) : Program Q R α → Prop
  | .done a => good a
  | .crash _ => True
  | .ask _ next => ∀ r, (next r).Yields good

/-- Whatever is replied, it does not break down. -/
def Sturdy {Q : Type} {R : Q → Type} {α : Type} : Program Q R α → Prop
  | .done _ => True
  | .crash _ => False
  | .ask _ next => ∀ r, (next r).Sturdy

section
variable {Q : Type} {R : Q → Type} {α β : Type} {p left : Program Q R α} {talk : Talk Q R}

theorem Leads.trans {more : Talk Q R} {mid : Program Q R α} (h : Leads p talk mid) (h' : Leads mid more left) :
    Leads p (talk ++ more) left := by
  induction h with
  | rest => exact h'
  | reply r h ih => exact .reply r (ih h')

theorem Leads.snoc {q : Q} {next : R q → Program Q R α} (h : Leads p talk (.ask q next)) (r : R q) :
    Leads p (talk ++ [⟨q, r⟩]) (next r) :=
  h.trans (.reply r .rest)

theorem leads_of_run {σ : Type} {answer : (q : Q) → σ → R q × σ} {s t : σ} {a : α}
    (h : p.run answer s = (.done a, t)) : ∃ talk, p.Leads talk (.done a) := by
  induction p generalizing s with
  | done value =>
    cases h
    exact ⟨[], .rest⟩
  | crash why => cases h
  | ask q next ih =>
    obtain ⟨talk, htalk⟩ := ih (answer q s).1 h
    exact ⟨_, .reply _ htalk⟩

/-- What a run comes to it is led to by what it asks and is replied. -/
theorem leads_talk {σ : Type} (answer : (q : Q) → σ → R q × σ) (p : Program Q R α) (s : σ) :
    (∃ a, (p.run answer s).1 = .done a ∧ p.Leads (p.talk answer s) (.done a)) ∨
      ∃ why, (p.run answer s).1 = .crashed why ∧ p.Leads (p.talk answer s) (.crash why) := by
  induction p generalizing s with
  | done a => exact .inl ⟨a, rfl, .rest⟩
  | crash why => exact .inr ⟨why, rfl, .rest⟩
  | ask q next ih =>
    obtain ⟨a, hrun, hleads⟩ | ⟨why, hrun, hleads⟩ := ih (answer q s).1 (answer q s).2
    · exact .inl ⟨a, hrun, .reply _ hleads⟩
    · exact .inr ⟨why, hrun, .reply _ hleads⟩

/-- A run of a sequence asks what its first part asks, and then what follows from what that has come to. -/
theorem talk_bind {σ : Type} {answer : (q : Q) → σ → R q × σ} {s t : σ} {a : α} (next : α → Program Q R β)
    (h : p.run answer s = (.done a, t)) :
    (p.bind next).talk answer s = p.talk answer s ++ (next a).talk answer t := by
  induction p generalizing s with
  | done value =>
    cases h
    rfl
  | crash why => cases h
  | ask q rest ih => exact congrArg (_ :: ·) (ih (answer q s).1 h)

theorem Leads.unique {left' : Program Q R α} (h : Leads p talk left) (h' : Leads p talk left') : left = left' := by
  induction h with
  | rest =>
    cases h'
    rfl
  | reply r h ih =>
    cases h' with
    | reply _ h' => exact ih h'

theorem Leads.bind (next : α → Program Q R β) (h : Leads p talk left) : Leads (p.bind next) talk (left.bind next) := by
  induction h with
  | rest => exact .rest
  | reply r h ih => exact .reply r ih

theorem leads_done {a : α} : Leads (.done a) talk left ↔ talk = [] ∧ left = .done a := by
  constructor
  · intro h
    cases h
    exact ⟨rfl, rfl⟩
  · rintro ⟨rfl, rfl⟩
    exact .rest

theorem leads_done_done {a b : α} : Leads (.done a : Program Q R α) talk (.done b) ↔ talk = [] ∧ b = a := by
  rw [leads_done, Program.done.injEq]

/-- A computation that asks has come to its end after a first reply and what follows it. -/
theorem leads_ask_done {q : Q} {next : R q → Program Q R α} {a : α} :
    Leads (.ask q next) talk (.done a) ↔ ∃ r rest, talk = ⟨q, r⟩ :: rest ∧ Leads (next r) rest (.done a) := by
  constructor
  · intro h
    cases h with
    | reply r h => exact ⟨r, _, rfl, h⟩
  · rintro ⟨r, rest, rfl, h⟩
    exact .reply r h

/-- A sequence is still in its first part, or in what follows from what that has come to. -/
theorem leads_bind {next : α → Program Q R β} {left : Program Q R β} :
    Leads (p.bind next) talk left ↔ (∃ first, Leads p talk first ∧ left = first.bind next) ∨
      ∃ first rest a, talk = first ++ rest ∧ Leads p first (.done a) ∧ Leads (next a) rest left := by
  constructor
  · intro h
    induction p generalizing talk with
    | done a => exact .inr ⟨[], talk, a, rfl, .rest, h⟩
    | crash why =>
      cases h
      exact .inl ⟨_, .rest, rfl⟩
    | ask q rest ih =>
      cases h with
      | rest => exact .inl ⟨_, .rest, rfl⟩
      | reply r h =>
        obtain ⟨first, hfirst, rfl⟩ | ⟨first, more, a, rfl, hfirst, hmore⟩ := ih r h
        · exact .inl ⟨first, .reply r hfirst, rfl⟩
        · exact .inr ⟨⟨q, r⟩ :: first, more, a, rfl, .reply r hfirst, hmore⟩
  · rintro (⟨first, hfirst, rfl⟩ | ⟨first, rest, a, rfl, hfirst, hrest⟩)
    · exact hfirst.bind next
    · exact (hfirst.bind next).trans hrest

/-- A sequence has come to its end after its first part and then what follows. -/
theorem leads_bind_done {next : α → Program Q R β} {b : β} :
    Leads (p.bind next) talk (.done b) ↔
      ∃ first rest a, talk = first ++ rest ∧ Leads p first (.done a) ∧ Leads (next a) rest (.done b) := by
  refine leads_bind.trans (or_iff_right_of_imp ?_)
  rintro ⟨first, hfirst, hdone⟩
  cases first with
  | done a => exact ⟨talk, [], a, (List.append_nil talk).symm, hfirst, hdone ▸ .rest⟩
  | crash why => cases hdone
  | ask q rest => cases hdone

/-- A sequence breaks down in its first part, or in what follows. -/
theorem leads_bind_crash {next : α → Program Q R β} {why : String} :
    Leads (p.bind next) talk (.crash why) ↔ Leads p talk (.crash why) ∨
      ∃ first rest a, talk = first ++ rest ∧ Leads p first (.done a) ∧ Leads (next a) rest (.crash why) := by
  rw [leads_bind]
  constructor
  · rintro (⟨first, hfirst, hcrash⟩ | h)
    · cases first with
      | done a => exact .inr ⟨talk, [], a, (List.append_nil talk).symm, hfirst, hcrash ▸ .rest⟩
      | crash _ =>
        cases hcrash
        exact .inl hfirst
      | ask q rest => cases hcrash
    · exact .inr h
  · exact Or.imp_left fun h => ⟨_, h, rfl⟩

/-- With replies to all that it asks a computation comes to an end. -/
theorem exists_end (reply : (q : Q) → R q) (p : Program Q R α) :
    ∃ talk, (∃ a, p.Leads talk (.done a)) ∨ ∃ why, p.Leads talk (.crash why) := by
  induction p with
  | done value => exact ⟨[], .inl ⟨value, .rest⟩⟩
  | crash why => exact ⟨[], .inr ⟨why, .rest⟩⟩
  | ask q next ih =>
    obtain ⟨talk, ⟨a, h⟩ | ⟨why, h⟩⟩ := ih (reply q)
    · exact ⟨_, .inl ⟨a, .reply _ h⟩⟩
    · exact ⟨_, .inr ⟨why, .reply _ h⟩⟩

/-- What is left after a talk asks no more than the computation may. -/
theorem Leads.uses {allowed : Q → Prop} (h : Leads p talk left) (hp : p.Uses allowed) : left.Uses allowed := by
  induction h with
  | rest => exact hp
  | reply r h ih => exact ih (hp.2 r)

theorem Uses.mono {allowed more : Q → Prop} (hp : p.Uses allowed) (hm : ∀ q, allowed q → more q) : p.Uses more := by
  induction p with
  | done value => trivial
  | crash why => trivial
  | ask q rest ih => exact ⟨hm q hp.1, fun r => ih r (hp.2 r)⟩

theorem Uses.bind {allowed : Q → Prop} {next : α → Program Q R β} (hp : p.Uses allowed)
    (hn : ∀ a, (next a).Uses allowed) : (p.bind next).Uses allowed := by
  induction p with
  | done value => exact hn value
  | crash why => trivial
  | ask q rest ih => exact ⟨hp.1, fun r => ih r (hp.2 r)⟩

theorem Leads.allowed {allowed : Q → Prop} (h : Leads p talk left) (hp : p.Uses allowed) : ∀ x ∈ talk, allowed x.1 := by
  induction h with
  | rest => exact fun x hx => absurd hx List.not_mem_nil
  | reply r h ih =>
    intro x hx
    obtain rfl | hx := List.mem_cons.mp hx
    · exact hp.1
    · exact ih (hp.2 r) x hx

theorem yields_any {good : α → Prop} (h : ∀ a, good a) : p.Yields good := by
  induction p with
  | done value => exact h value
  | crash why => trivial
  | ask q rest ih => exact ih

theorem Leads.yields {good : α → Prop} (h : Leads p talk left) (hp : p.Yields good) : left.Yields good := by
  induction h with
  | rest => exact hp
  | reply r h ih => exact ih (hp r)

theorem Leads.sturdy (h : Leads p talk left) (hp : p.Sturdy) : left.Sturdy := by
  induction h with
  | rest => exact hp
  | reply r h ih => exact ih (hp r)

theorem Sturdy.bind {next : α → Program Q R β} (hp : p.Sturdy) (hn : ∀ a, (next a).Sturdy) : (p.bind next).Sturdy := by
  induction p with
  | done value => exact hn value
  | crash why => exact hp.elim
  | ask q rest ih => exact fun r => ih r (hp r)

end
end PodMachines.Program
