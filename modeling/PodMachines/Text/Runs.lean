/-!
# Sets of characters by run lengths

A set of code points is written as the lengths of the runs that lie outside and inside it by turns, the first
run outside.
-/

namespace PodMachines.Text

/-- Whether the number lies in a run inside the set, the first run being inside as `inside` says. -/
def inRuns (inside : Bool) : List Nat → Nat → Bool
  | [], _ => false
  | run :: rest, n => if n < run then inside else inRuns (!inside) rest (n - run)

/-- Whether a character belongs to the set that run lengths write. -/
def memRuns (runs : List Nat) (c : Char) : Bool :=
  inRuns false runs c.toNat

end PodMachines.Text
