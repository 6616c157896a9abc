import PodMachines.Text.Blank
import PodMachines.Text.Decimal

/-!
# Machine names

A machine is named after its pod: lower case letters, digits and single dashes, cut to a length that leaves
room for a dash and eight digits of base sixteen, which tell machines of one pod apart.
-/

namespace PodMachines.Machine

/-- A letter of the basic alphabet in lower case; any other character as it is. -/
def lowerLetter (c : Char) : Char :=
  if 'A' ≤ c ∧ c ≤ 'Z' then Char.ofNat (c.toNat + 32) else c

/-- The characters of names other than the dash. -/
def isNameChar (c : Char) : Bool :=
  ('a' ≤ c && c ≤ 'z') || ('0' ≤ c && c ≤ '9')

/-- The characters of names kept, and each run of others replaced by one dash; `afterDash` says that the text
    before ends in such a run. -/
def sanitize (afterDash : Bool) : List Char → List Char
  | [] => []
  | c :: rest =>
    if isNameChar (lowerLetter c) then lowerLetter c :: sanitize false rest
    else if afterDash then sanitize true rest
    else '-' :: sanitize true rest

/-- How long the part of a name before its last dash may be. -/
def baseLength : Nat := 54

/-- The part of a name before its last dash. -/
def nameBase (nspace pod : String) : List Char :=
  let whole := "vmpod-".toList ++ nspace.toList ++ '-' :: pod.toList
  Text.dropTrailing (· = '-') ((sanitize false whole).take baseLength)

/-- How many digits end a name. -/
def suffixLength : Nat := 8

/-- The digits that end a name, of a number. -/
def suffix (n : UInt32) : List Char :=
  Text.hexPadded suffixLength n.toNat

/-- The name of a machine for a pod, its last digits given by a number. -/
def name (nspace pod : String) (n : UInt32) : String :=
  String.ofList (nameBase nspace pod ++ '-' :: suffix n)

/-- What a backend is asked for. -/
structure Spec where
  name : String
  /-- The image to boot instead of the configured one. -/
  image : Option String
  deriving DecidableEq, Repr

/-- A machine that a backend has made. -/
structure Handle where
  /-- The backend's own name for it. -/
  id : String
  name : String
  deriving DecidableEq, Repr

/-- The machine for a pod. -/
def Spec.forPod (nspace pod : String) (image : Option String) (n : UInt32) : Spec :=
  ⟨Machine.name nspace pod n, image⟩

/-- The `n`-th of numbers that look unrelated; no two of them are equal. -/
def spread (n : Nat) : UInt32 :=
  n.toUInt32 * 2654435761

end PodMachines.Machine
