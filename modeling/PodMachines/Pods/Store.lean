import PodMachines.Pods.Record

/-!
# What calls share

The directory of sandboxes behind its guard, the records, the clock, and whether images of catalogs are booted.
A record is known by its place; the directory says which record an id means now. There is one clock, which counts
whole milliseconds: what is shorter, and how the clock of the calendar differs from one that only goes on, is left out.
-/

namespace PodMachines.Pods

/-- Why a call visits the directory. -/
inductive Visit
  /-- To look up. -/
  | lookup
  /-- To put a record under an id. -/
  | enroll (id : String) (record : Nat)
  /-- To take a record out from under an id, if it is still there. -/
  | forget (id : String) (record : Nat)
  deriving DecidableEq, Repr

/-- Whether the visit changes the directory. -/
def Visit.writes : Visit → Bool
  | .lookup => false
  | .enroll .. | .forget .. => true

/-- Who is in the directory: nobody, readers, or one writer. -/
inductive Guard
  | free
  | readers (others : Nat)
  | writer
  deriving DecidableEq, Repr

namespace Guard

/-- With one more visitor, if one is let in. -/
def enter (visit : Visit) : Guard → Option Guard
  | free => some (if visit.writes then writer else readers 0)
  | readers others => if visit.writes then none else some (readers (others + 1))
  | writer => none

/-- With one visitor less. -/
def leave : Guard → Guard
  | free | writer | readers 0 => free
  | readers (others + 1) => readers others

end Guard

/-- What calls share. -/
structure Store where
  /-- The time in milliseconds. -/
  now : Nat
  imageBoot : Bool
  directory : Table Nat
  guard : Guard
  records : List Record
  deriving DecidableEq

namespace Store

/-- No sandboxes. -/
def empty (now : Nat) : Store :=
  ⟨now, false, .empty, .free, []⟩

/-- With a record changed. -/
def modify (s : Store) (record : Nat) (change : Record → Record) : Store :=
  { s with records := s.records.modify record change }

/-- With a strand's wish for a record's lock. -/
def requestLock (s : Store) (record : Nat) (me : Strand) : Store :=
  s.modify record fun r => { r with lock := r.lock.request me }

/-- The record whose lock the strand holds. -/
def held? (s : Store) (record : Nat) (me : Strand) : Option Record :=
  s.records[record]?.filter fun r => r.lock.holder = some me

end Store
end PodMachines.Pods
