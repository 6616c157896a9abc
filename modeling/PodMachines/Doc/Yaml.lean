import PodMachines.Doc.Event
import PodMachines.Doc.Yaml.Step
import PodMachines.Text.Split

/-!
# YAML

A YAML text as a document. Any scalar reads as its text; a plain one, and a literal one that is tagged so, may
also read as a number. An empty text is an empty map, and records are maps only. A second document, and a fault
behind the first, break the document, and so do characters that YAML does not allow, wherever they stand.
-/

namespace PodMachines.Doc.Yaml

/-! ### Numbers -/

/-- The ways of writing a number in another base than ten. -/
def basePrefixes : List (String × Nat) :=
  [("0x", 16), ("0o", 8), ("0b", 2)]

/-- The number that a scalar writes: decimal without leading zeros, or in another base, after an optional plus
    sign. -/
def numberOf (s : List Char) : Option Nat :=
  let unsigned := (Text.stripStart ['+'] s).getD s
  let based := basePrefixes.findSome? fun (start, base) =>
    (Text.stripStart start.toList unsigned).bind (Text.readDigits base Text.wordLimit)
  match based with
  | some n => some n
  | none =>
    if unsigned.head? = some '0' ∧ unsigned.length > 1 then none
    else Text.readDigits 10 Text.wordLimit unsigned

/-- The tag of whole numbers. -/
def wholeTag : List Char :=
  "tag:yaml.org,2002:int".toList

/-- Whether a scalar of this style and tag may be a number. -/
def mayBeNumber (style : Style) (tag : Option (List Char)) : Bool :=
  style = .plain || (style = .literal && tag = some wholeTag)

/-- What a scalar may be read as. -/
def scalarOf (tag : Option (List Char)) (content : List Char) (style : Style) : Scalar :=
  ⟨some (String.ofList content), if mayBeNumber style tag then numberOf content else none, false,
    content = [] && style = .plain⟩

/-! ### The first document -/

/-- An event whose reference is a number given to its anchor. -/
inductive Draft
  | event (e : Event)
  | again (number : Nat)
  deriving DecidableEq, Repr

/-- A document while it is read. An anchor gets as its number how many names have been anchored before, and
    keeps its place under it; a name anchored again gets a number anew, which may be in use. -/
structure Loading where
  drafts : List Draft
  numbers : List (List Char × Nat)
  places : List (Nat × Nat)
  deriving Repr

/-- A node with an optional anchor. -/
def Loading.add (l : Loading) (anchor : Option (List Char)) (e : Event) : Loading :=
  match anchor with
  | none => { l with drafts := l.drafts ++ [.event e] }
  | some name =>
    let number := l.numbers.length
    ⟨l.drafts ++ [.event e], (name, number) :: l.numbers.filter (·.1 ≠ name), (number, l.drafts.length) :: l.places⟩

/-- The events with references to places. -/
def Loading.events (l : Loading) : List Event :=
  l.drafts.map fun
    | .event e => e
    | .again number => .again (((l.places.find? (·.1 = number)).map (·.2)).getD 0)

/-- Reads on to the end of the first document: its events, and the steps behind it unless there is a fault. -/
def load : (most : Nat) → Loading → Steps → Loading × Option Steps
  | 0, l, _ => (l, none)
  | most + 1, l, s =>
    match s.next with
    | none => (l, none)
    | some (step, s) =>
      match step with
      | .streamStart | .documentStart => load most l s
      | .streamEnd => (if l.drafts = [] then l.add none (.scalar ⟨none, none, false, true⟩) else l, some s)
      | .documentEnd => (l, some s)
      | .alias_ name =>
        match l.numbers.find? (·.1 = name) with
        | some (_, number) => load most { l with drafts := l.drafts ++ [.again number] } s
        | none => (l, none)
      | .scalar anchor tag content style => load most (l.add anchor (.scalar (scalarOf tag content style))) s
      | .listStart anchor => load most (l.add anchor .listStart) s
      | .listEnd => load most (l.add none .listEnd) s
      | .mapStart anchor => load most (l.add anchor .mapStart) s
      | .mapEnd => load most (l.add none .mapEnd) s

/-- Whether nothing follows the first document. -/
def endsHere (s : Steps) : Bool :=
  s.goal = .finished || (s.next.map (·.1)) = some .streamEnd

/-- A YAML text as a document. -/
def events (text : String) : Events :=
  let s := text.toList
  if s.all isAllowed && s.head? ≠ some '\uFEFF' then
    let (l, rest) := load (8 * s.length + 16) ⟨[], [], []⟩ (.ofChars s)
    ⟨l.events, rest.any endsHere, false⟩
  else ⟨[], false, false⟩

end PodMachines.Doc.Yaml
