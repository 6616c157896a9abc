import PodMachines.Doc.Event
import PodMachines.Text.Decimal

/-!
# Decoding documents

Values are decoded from the events of a document in order, so the first fault decides the error. A record is a
map of named fields, in any order and with unknown names between them, or, where the format says so, a list of
their values in the order of declaration. What a field is worth when it is absent belongs to its declaration.
-/

namespace PodMachines.Doc

/-- Why a document does not decode. -/
inductive DecodeError
  /-- A required field is absent. -/
  | missing (field : String)
  /-- A field occurs twice. -/
  | duplicate (field : String)
  /-- Anything else: bad syntax, a wrong kind of value, a wrong number of values. -/
  | malformed
  deriving DecidableEq, Repr

/-- How a decoding error reads. -/
def DecodeError.message : DecodeError → String
  | missing field => "missing field `" ++ field ++ "`"
  | duplicate field => "duplicate field `" ++ field ++ "`"
  | malformed => "<parse error>"

/-- Reads a value at the head of the events of a document, and says what follows it. -/
abbrev Decode (α : Type) := Events → List Event → Except DecodeError (α × List Event)

namespace Decode

/-- The scalar at the head, or the one that the head refers to. -/
def scalar : Decode Scalar := fun doc events =>
  match events with
  | .scalar s :: rest => .ok (s, rest)
  | .again place :: rest =>
    match doc.from place with
    | .scalar s :: _ => .ok (s, rest)
    | _ => .error .malformed
  | _ => .error .malformed

/-- A text. -/
def text : Decode String := fun doc events => do
  let (s, rest) ← scalar doc events
  match s.text with
  | some t => .ok (t, rest)
  | none => .error .malformed

/-- A natural number of one machine word. -/
def word : Decode UInt64 := fun doc events => do
  let (s, rest) ← scalar doc events
  match s.number with
  | some n => if n < Text.wordLimit then .ok (n.toUInt64, rest) else .error .malformed
  | none => .error .malformed

/-- A value, or none where an absent value stands. -/
def optional (d : Decode α) : Decode (Option α) := fun doc events =>
  match events with
  | .scalar s :: rest =>
    if s.isNull then .ok (none, rest)
    else (d doc events).map fun (a, rest) => (some a, rest)
  | _ => (d doc events).map fun (a, rest) => (some a, rest)

/-- Values up to the end of a list, of which at most `most` are left. -/
def items (d : Decode α) (doc : Events) : (most : Nat) → List Event → Except DecodeError (List α × List Event)
  | _, .listEnd :: rest => .ok ([], rest)
  | 0, _ => .error .malformed
  | most + 1, events => do
    let (a, rest) ← d doc events
    let (as, rest) ← items d doc most rest
    .ok (a :: as, rest)

/-- A list of values. -/
def listOf (d : Decode α) : Decode (List α) := fun doc events =>
  match events with
  | .listStart :: rest => items d doc rest.length rest
  | .scalar s :: rest => if s.isEmpty then .ok ([], rest) else .error .malformed
  | .again place :: rest =>
    match doc.from place with
    | .listStart :: inner => (items d doc inner.length inner).map fun (as, _) => (as, rest)
    | .scalar s :: _ => if s.isEmpty then .ok ([], rest) else .error .malformed
    | _ => .error .malformed
  | _ => .error .malformed

/-- The value of a whole document. -/
def run (d : Decode α) (doc : Events) : Except DecodeError α := do
  let (a, rest) ← d doc doc.events
  if doc.intact && rest.isEmpty then .ok a else .error .malformed

end Decode

/-- What a field is worth when it is absent. -/
inductive Absent (β : Type)
  /-- It may not be absent. -/
  | refused
  /-- It has a default. -/
  | default (b : β)
  /-- It may be absent from a map, but not from a list. -/
  | unnamed (b : β)

/-- A record that is being read: its fields in order of declaration, each with what was found for it, and at
    the end how the value is made of them. -/
inductive Record : Type → Type 1
  | done {α : Type} (value : α) : Record α
  | field {α β : Type} (name : String) (absent : Absent β) (read : Decode β) (found : Option β)
      (rest : Record (β → α)) : Record α

namespace Record

/-- A field that must be there. -/
def required {α β : Type} (name : String) (read : Decode β) (rest : Record (β → α)) : Record α :=
  .field name .refused read none rest

/-- A field with a default. -/
def withDefault {α β : Type} (name : String) (value : β) (read : Decode β) (rest : Record (β → α)) : Record α :=
  .field name (.default value) read none rest

/-- A field that need not be there. -/
def optional {α β : Type} (name : String) (read : Decode β) (rest : Record (Option β → α)) : Record α :=
  .field name (.unnamed none) (Decode.optional read) none rest

/-- The record after the value of the named field has been read from the events, and what follows that value;
    none if no field has the name. -/
def offer {α : Type} (doc : Events) (key : String) (events : List Event) :
    Record α → Except DecodeError (Option (Record α × List Event))
  | .done _ => .ok none
  | .field name absent read found rest =>
    if name = key then
      match found with
      | some _ => .error (.duplicate name)
      | none => (read doc events).map fun (b, left) => some (.field name absent read (some b) rest, left)
    else
      (rest.offer doc key events).map fun
        | some (rest, left) => some (.field name absent read found rest, left)
        | none => none

/-- The value of a record whose map has ended. The first required field that is absent is reported. -/
def finish {α : Type} : Record α → Except DecodeError α
  | .done value => .ok value
  | .field name absent _ found rest =>
    match found, absent with
    | some b, _ => rest.finish.map fun make => make b
    | none, .default b | none, .unnamed b => rest.finish.map fun make => make b
    | none, .refused => .error (.missing name)

/-- The value of a record from the entries of a map, of which at most `most` are left. -/
def entries {α : Type} (doc : Events) : (most : Nat) → Record α → List Event → Except DecodeError (α × List Event)
  | _, record, .mapEnd :: rest => record.finish.map fun a => (a, rest)
  | 0, _, _ => .error .malformed
  | most + 1, record, events =>
    match Decode.text doc events with
    | .error e => .error e
    | .ok (key, rest) =>
      match record.offer doc key rest with
      | .error e => .error e
      | .ok (some (record, rest)) => entries doc most record rest
      | .ok none =>
        match skipValue 0 rest with
        | some rest => entries doc most record rest
        | none => .error .malformed

/-- The value of a record from a list of its fields' values. -/
def positional {α : Type} (doc : Events) : Record α → List Event → Except DecodeError (α × List Event)
  | .done value, .listEnd :: rest => .ok (value, rest)
  | .done _, _ => .error .malformed
  | .field _ absent read _ rest, events =>
    match events, absent with
    | .listEnd :: _, .default b => (rest.positional doc events).map fun (make, left) => (make b, left)
    | .listEnd :: _, _ => .error .malformed
    | _, _ => do
      let (b, left) ← read doc events
      let (make, left) ← rest.positional doc left
      .ok (make b, left)

/-- A record. -/
def decode {α : Type} (record : Record α) : Decode α := fun doc events =>
  match events with
  | .mapStart :: rest => record.entries doc rest.length rest
  | .listStart :: rest => if doc.listsAreRecords then record.positional doc rest else .error .malformed
  | .scalar s :: rest => if s.isEmpty then record.finish.map fun a => (a, rest) else .error .malformed
  | _ => .error .malformed

end Record
end PodMachines.Doc
