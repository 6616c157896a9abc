import PodMachines.Text.Decimal

/-!
# Internet addresses

Addresses of four bytes or eight groups, read from their text forms and written in the canonical one: a group
has no leading zeros, and the first longest run of at least two zero groups becomes two colons.
-/

namespace PodMachines

/-- An address of version 4 or 6. -/
inductive Address
  | v4 (a b c d : UInt8)
  | v6 (groups : List UInt16)
  deriving DecidableEq, Repr

namespace Address
open Text

/-- A number at the start of a text and what follows it: as many digits as there are, at most `most`, below
    `limit`, and with a leading zero only where `zeros` allows one. -/
def number (base most limit : Nat) (zeros : Bool) (s : List Char) : Option (Nat × List Char) :=
  let digits := s.takeWhile (isDigitOf base)
  let n := digitsValue base 0 digits
  if digits = [] || digits.length > most || n ≥ limit then none
  else if !zeros && digits.head? == some '0' && digits.length > 1 then none
  else some (n, s.dropWhile (isDigitOf base))

/-- What follows a separator, which stands before every part but the first. -/
def separated (sep : Char) (isFirst : Bool) (s : List Char) : Option (List Char) :=
  if isFirst then some s
  else
    match s with
    | c :: rest => if c = sep then some rest else none
    | [] => none

/-- One byte of an address of version 4. -/
def byte (isFirst : Bool) (s : List Char) : Option (UInt8 × List Char) := do
  let (n, rest) ← number 10 3 256 false (← separated '.' isFirst s)
  some (n.toUInt8, rest)

/-- Four bytes in decimal between dots, and what follows them. -/
def fourBytes (s : List Char) : Option ((UInt8 × UInt8 × UInt8 × UInt8) × List Char) := do
  let (a, s) ← byte true s
  let (b, s) ← byte false s
  let (c, s) ← byte false s
  let (d, s) ← byte false s
  some ((a, b, c, d), s)

/-- Two bytes as one group. -/
def groupOf (high low : UInt8) : UInt16 :=
  high.toUInt16 * 256 + low.toUInt16

/-- Groups between colons at the start of a text, at most `room` of them, four bytes in decimal standing for
    the last two; whether they did; and what follows. -/
def groups (isFirst : Bool) : (room : Nat) → List Char → List UInt16 × Bool × List Char
  | 0, s => ([], false, s)
  | room + 1, s =>
    let embedded := if room = 0 then none else (separated ':' isFirst s).bind fourBytes
    match embedded with
    | some ((a, b, c, d), rest) => ([groupOf a b, groupOf c d], true, rest)
    | none =>
      match (separated ':' isFirst s).bind (number 16 4 65536 true) with
      | some (n, rest) =>
        let (more, decimal, rest) := groups false room rest
        (n.toUInt16 :: more, decimal, rest)
      | none => ([], false, s)

/-- Eight groups, or fewer around two colons that stand for at least one zero group. -/
def eightGroups (s : List Char) : Option (List UInt16 × List Char) :=
  let (head, decimal, rest) := groups true 8 s
  if head.length = 8 then some (head, rest)
  else if decimal then none
  else
    match rest with
    | ':' :: ':' :: rest =>
      let (tail, _, rest) := groups true (7 - head.length) rest
      some (head ++ List.replicate (8 - head.length - tail.length) 0 ++ tail, rest)
    | _ => none

/-- The address that the whole text writes. -/
def ofChars? (s : List Char) : Option Address :=
  match fourBytes s with
  | some ((a, b, c, d), []) => some (v4 a b c d)
  | some _ => none
  | none =>
    match eightGroups s with
    | some (gs, []) => some (v6 gs)
    | _ => none

/-- The address that a text writes. -/
def ofText? (s : String) : Option Address :=
  ofChars? s.toList

/-- Four bytes in decimal between dots. -/
def dotted (a b c d : UInt8) : String :=
  ".".intercalate ([a, b, c, d].map fun x => toString x.toNat)

/-- How many zero groups the list starts with. -/
def zerosAhead : List UInt16 → Nat
  | [] => 0
  | g :: rest => if g = 0 then zerosAhead rest + 1 else 0

/-- The first longest run of zero groups: where it starts, counted from `start`, and its length. -/
def longestZeros (start : Nat) : List UInt16 → Nat × Nat
  | [] => (start, 0)
  | g :: rest =>
    let here := zerosAhead (g :: rest)
    let (where_, len) := longestZeros (start + 1) rest
    if here ≥ len then (start, here) else (where_, len)

/-- Groups in base sixteen between colons. -/
def colons (gs : List UInt16) : String :=
  ":".intercalate (gs.map fun g => String.ofList (hexShort 4 g.toNat))

/-- The canonical text of eight groups. -/
def groupsText : List UInt16 → String
  | [0, 0, 0, 0, 0, 0xFFFF, high, low] =>
    "::ffff:" ++ dotted (high / 256).toUInt8 (high % 256).toUInt8 (low / 256).toUInt8 (low % 256).toUInt8
  | gs =>
    let (start, len) := longestZeros 0 gs
    if len > 1 then colons (gs.take start) ++ "::" ++ colons (gs.drop (start + len)) else colons gs

/-- The canonical text of an address. -/
def toText : Address → String
  | v4 a b c d => dotted a b c d
  | v6 gs => groupsText gs

end Address
end PodMachines
