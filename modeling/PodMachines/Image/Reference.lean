import PodMachines.Failure
import PodMachines.Text.Split

/-!
# Image references

A reference is `[qualifier/]name[:tag]`: the qualifier is an owner or a project, and the tag is no part of what
a catalog is asked. A reference without a tag is normalized to the tag `latest`.
-/

namespace PodMachines.Image

/-- What a catalog is asked: the name, and within which owner or project. -/
structure Reference where
  qualifier : Option String
  name : String
  deriving DecidableEq, Repr

namespace Reference

/-- The reference that characters write. Neither its name nor its qualifier may be empty. -/
def ofChars? (s : List Char) : Option Reference :=
  match Text.splitOn '/' s with
  | [last] =>
    let name := Text.beforeFirst ':' last
    if name = [] then none else some ⟨none, String.ofList name⟩
  | [qualifier, last] =>
    let name := Text.beforeFirst ':' last
    if name = [] ∨ qualifier = [] then none else some ⟨some (String.ofList qualifier), String.ofList name⟩
  | _ => none

/-- The reference that a text writes. -/
def parse (s : String) : Except Failure Reference :=
  match ofChars? s.toList with
  | some r => .ok r
  | none => .error (.invalidReference s)

/-- The tag of a reference without one. -/
def latest : List Char :=
  ":latest".toList

/-- Whether the last part of a path carries a tag; a colon before it is none. -/
def isTagged (s : List Char) : Bool :=
  (Text.afterLast '/' s).contains ':'

/-- A reference with a tag, its own or `latest`. -/
def normalize (s : String) : String :=
  if isTagged s.toList then s else String.ofList (s.toList ++ latest)

end Reference
end PodMachines.Image
