/-!
# Programs

A computation that asks questions and goes on with the replies, as a value. Who replies, and when, is no part of
it, so what it asks can be followed under every reply. Main statements: the laws of sequence, and that a run of
a sequence is the sequence of the runs.
-/

namespace PodMachines

/-- A computation over questions `Q`, each with its kind of reply. -/
inductive Program (Q : Type) (R : Q → Type) (α : Type) where
  /-- It has ended. -/
  | done (value : α)
  /-- It has broken down. -/
  | crash (why : String)
  /-- It asks, and goes on with the reply. -/
  | ask (question : Q) (next : R question → Program Q R α)

/-- How a computation ends. -/
inductive Outcome (α : Type) where
  | done (value : α)
  | crashed (why : String)
  deriving DecidableEq, Repr

namespace Program
variable {Q : Type} {R : Q → Type} {α β γ σ : Type}

/-- One computation after another. -/
def bind : Program Q R α → (α → Program Q R β) → Program Q R β
  | done value, next => next value
  | crash why, _ => crash why
  | ask q rest, next => ask q fun reply => (rest reply).bind next

instance : Monad (Program Q R) where
  pure := done
  bind := bind

/-- The reply to a question. -/
def query (q : Q) : Program Q R (R q) :=
  ask q done

/-- What a computation comes to, and what is left of the one who replies. -/
def run (answer : (q : Q) → σ → R q × σ) : Program Q R α → σ → Outcome α × σ
  | done value, s => (.done value, s)
  | crash why, s => (.crashed why, s)
  | ask q next, s =>
    let (reply, s) := answer q s
    (next reply).run answer s

theorem bind_done (p : Program Q R α) : p.bind done = p := by
  induction p with
  | done value => rfl
  | crash why => rfl
  | ask q next ih => simp only [bind]; congr 1; funext reply; exact ih reply

theorem bind_assoc (p : Program Q R α) (first : α → Program Q R β) (second : β → Program Q R γ) :
    (p.bind first).bind second = p.bind fun value => (first value).bind second := by
  induction p with
  | done value => rfl
  | crash why => rfl
  | ask q next ih => simp only [bind]; congr 1; funext reply; exact ih reply

/-- A run of a sequence is a run of its first part and then one of what follows. -/
theorem run_bind (answer : (q : Q) → σ → R q × σ) (p : Program Q R α) (next : α → Program Q R β) (s : σ) :
    (p.bind next).run answer s =
      match p.run answer s with
      | (.done value, s) => (next value).run answer s
      | (.crashed why, s) => (.crashed why, s) := by
  induction p generalizing s with
  | done value => rfl
  | crash why => rfl
  | ask q rest ih => simp only [bind, run]; exact ih _ _

end Program
end PodMachines
