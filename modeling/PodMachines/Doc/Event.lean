/-!
# Documents as events

A document is read in order as a list of events: scalars, the starts and ends of lists and maps, and references
to an earlier event that carries an anchor. A document that stops being well formed keeps the events before
that place and is marked as broken, so that what is decoded from it is decided by what comes first. How a text is
parsed is left open here.
-/

namespace PodMachines.Doc

/-- What a scalar may be read as. -/
structure Scalar where
  /-- The text, where a text is wanted. -/
  text : Option String
  /-- The number, where a number is wanted. -/
  number : Option Nat
  /-- Whether it stands for an absent value. -/
  isNull : Bool
  /-- Whether it stands for an empty list or map. -/
  isEmpty : Bool
  deriving DecidableEq, Repr

/-- One step of a document. In a map, keys and values take turns. -/
inductive Event
  | scalar (s : Scalar)
  | listStart
  | listEnd
  | mapStart
  | mapEnd
  /-- Another reference to the event at a place of the document. -/
  | again (place : Nat)
  deriving DecidableEq, Repr

/-- The events of a document, and whether it was well formed to its end. -/
structure Events where
  events : List Event
  intact : Bool
  /-- Whether its format lets a list of values stand for a record. -/
  listsAreRecords : Bool
  deriving DecidableEq, Repr

/-- The events from a place on. -/
def Events.from (d : Events) (place : Nat) : List Event :=
  d.events.drop place

/-- What follows the value at the head, `depth` lists and maps being open; none if the events end first. -/
def skipValue : (depth : Nat) → List Event → Option (List Event)
  | _, [] => none
  | depth, .listStart :: rest | depth, .mapStart :: rest => skipValue (depth + 1) rest
  | 0, .listEnd :: _ | 0, .mapEnd :: _ => none
  | depth + 1, .listEnd :: rest | depth + 1, .mapEnd :: rest => if depth = 0 then some rest else skipValue depth rest
  | depth, .scalar _ :: rest | depth, .again _ :: rest => if depth = 0 then some rest else skipValue depth rest

/-- How texts are parsed as documents, in each format. -/
class Parsers where
  json : String → Events
  yaml : String → Events

end PodMachines.Doc
