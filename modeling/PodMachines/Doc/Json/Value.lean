import PodMachines.Doc.Json

/-!
# JSON values

A whole JSON text as a value. Of several members with one name the last counts. Lists and objects may be nested
to a fixed depth, texts must be made of characters, and numbers must lie within the range of a double.
-/

namespace PodMachines.Doc.Json

/-- A JSON value. A decimal is `mantissa * 10 ^ exponent`. -/
inductive Value
  | null
  | bool (b : Bool)
  | integer (n : Int)
  | decimal (mantissa exponent : Int)
  | text (s : String)
  | list (items : List Value)
  | object (members : List (String × Value))

namespace Value

/-- How deep lists and objects may be nested. -/
def deepest : Nat := 127

/-- How far whole numbers of a machine word reach below zero. -/
def lowest : Nat := 0x8000000000000000

/-- The least number that rounds to no double. -/
def tooLarge : Nat := 1 <<< 1024 - 1 <<< 970

/-- A number that is no whole number of a machine word. It is refused when it is too large for a double, and
    stands for zero when it is far too small for one. -/
def ofDecimal (negative : Bool) (mantissa : Nat) (exponent : Int) : Option Value :=
  let length : Int := (Nat.toDigits 10 mantissa).length
  if mantissa = 0 ∨ length + exponent < -400 then some (decimal 0 0)
  else if length + exponent > 400 then none
  else
    let power := Nat.pow 10 exponent.natAbs
    let fits := if exponent < 0 then mantissa < tooLarge * power else mantissa * power < tooLarge
    if fits then some (decimal (if negative then -mantissa else mantissa) exponent) else none

/-- The value of a number as it is written. -/
def ofNumeral (n : Numeral) : Option Value :=
  let fraction := n.fraction.getD []
  let mantissa := Text.digitsValue 10 n.whole fraction
  let isWhole := n.fraction.isNone && n.exponent.isNone
  if isWhole && !n.negative && n.whole < Text.wordLimit then some (integer n.whole)
  else if isWhole && n.negative && 0 < n.whole && n.whole ≤ lowest then some (integer (-n.whole))
  else ofDecimal n.negative mantissa (n.exponent.getD 0 - fraction.length)

/-- A list or an object that is being read: what it holds so far, the latest first, and in an object the name
    of the member that is being read. -/
inductive Frame
  | list (items : List Value)
  | object (members : List (String × Value)) (name : Option String)

/-- A member put under its name, where it replaces an earlier one. -/
def putMember (name : String) (value : Value) (members : List (String × Value)) : List (String × Value) :=
  (name, value) :: members.filter (·.1 ≠ name)

/-- Where reading stands after a value inside `frames`, innermost first. -/
inductive Reading
  | inside (frames : List Frame)
  | whole (value : Value)
  | fault

/-- A value inside `frames`. -/
def Reading.put (value : Value) : List Frame → Reading
  | [] => .whole value
  | .list items :: outer => .inside (.list (value :: items) :: outer)
  | .object members (some name) :: outer => .inside (.object (putMember name value members) none :: outer)
  | .object _ none :: _ => .fault

/-- A token inside `frames`. -/
def Reading.token (frames : List Frame) : Token → Reading
  | .null => .put .null frames
  | .bool b => .put (.bool b) frames
  | .number n => match ofNumeral n with
    | some v => .put v frames
    | none => .fault
  | .text none => .fault
  | .text (some s) => match frames with
    | .object members none :: outer => .inside (.object members (some s) :: outer)
    | _ => .put (.text s) frames
  | .arrayStart => if frames.length < deepest then .inside (.list [] :: frames) else .fault
  | .objectStart => if frames.length < deepest then .inside (.object [] none :: frames) else .fault
  | .arrayEnd => match frames with
    | .list items :: outer => .put (.list items.reverse) outer
    | _ => .fault
  | .objectEnd => match frames with
    | .object members none :: outer => .put (.object members.reverse) outer
    | _ => .fault

/-- The value that tokens write inside `frames`. -/
def ofTokens (frames : List Frame) : List Token → Option Value
  | [] => none
  | t :: rest =>
    match Reading.token frames t with
    | .inside frames => ofTokens frames rest
    | .whole value => if rest.isEmpty then some value else none
    | .fault => none

/-- The value that a text writes. -/
def ofText? (s : String) : Option Value :=
  let ts := tokens s
  if ts.intact then ofTokens [] ts.tokens else none

end Value
end PodMachines.Doc.Json
