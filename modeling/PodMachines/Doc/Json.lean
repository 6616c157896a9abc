import PodMachines.Doc.Event
import PodMachines.Text.Decimal
import PodMachines.Text.Split

/-!
# JSON

JSON text read as tokens, in which keys and values take turns inside an object. Reading stops at the first
fault and keeps the tokens before it. The tokens are seen as the events of a document, or as a value; of
several members with one name the value keeps the last.
-/

namespace PodMachines.Doc.Json

/-- A number as it is written: sign, digits of the whole part, digits of the fraction, exponent. -/
structure Numeral where
  negative : Bool
  whole : Nat
  /-- Digits after the point, `none` without a point. -/
  fraction : Option (List Char)
  /-- The power of ten after the letter, `none` without one. -/
  exponent : Option Int
  deriving DecidableEq, Repr

/-- The natural number that is written without sign, point and exponent. -/
def Numeral.natural? (n : Numeral) : Option Nat :=
  if n.negative || n.fraction.isSome || n.exponent.isSome then none else some n.whole

/-- One step of a JSON text. A text is none where its escapes are no characters. -/
inductive Token
  | null
  | bool (b : Bool)
  | number (n : Numeral)
  | text (s : Option String)
  | arrayStart
  | arrayEnd
  | objectStart
  | objectEnd
  deriving DecidableEq, Repr

/-- The characters that may stand between tokens. -/
def isSpace (c : Char) : Bool :=
  c = ' ' || c = '\n' || c = '\t' || c = '\r'

/-! ### Strings -/

/-- What an escape letter stands for. -/
def escaped : Char → Option Char
  | '"' => some '"'
  | '\\' => some '\\'
  | '/' => some '/'
  | 'b' => some '\x08'
  | 'f' => some '\x0c'
  | 'n' => some '\n'
  | 'r' => some '\r'
  | 't' => some '\t'
  | _ => none

/-- One piece of a string: a character, or sixteen bits that stand for one or for half of one. -/
inductive Piece
  | char (c : Char)
  | unit (n : Nat)
  deriving DecidableEq, Repr

/-- The pieces of a string up to its closing quote, and what follows it. -/
def pieces : List Char → Option (List Piece × List Char)
  | [] => none
  | '"' :: rest => some ([], rest)
  | '\\' :: 'u' :: a :: b :: c :: d :: rest =>
    if [a, b, c, d].all (Text.isDigitOf 16) then
      (pieces rest).map fun (ps, left) => (.unit (Text.digitsValue 16 0 [a, b, c, d]) :: ps, left)
    else none
  | '\\' :: e :: rest =>
    match escaped e with
    | some c => (pieces rest).map fun (ps, left) => (.char c :: ps, left)
    | none => none
  | c :: rest => if c.toNat < 0x20 then none else (pieces rest).map fun (ps, left) => (.char c :: ps, left)

/-- The characters that pieces write: two halves in order are one character, a half alone is none. -/
def assemble : List Piece → Option (List Char)
  | [] => some []
  | .char c :: rest => (assemble rest).map (c :: ·)
  | .unit n :: rest =>
    if n < 0xD800 ∨ 0xDFFF < n then (assemble rest).map (Char.ofNat n :: ·)
    else if n ≤ 0xDBFF then
      match rest with
      | .unit m :: rest =>
        if 0xDC00 ≤ m ∧ m ≤ 0xDFFF then
          (assemble rest).map (Char.ofNat (0x10000 + (n - 0xD800) * 0x400 + (m - 0xDC00)) :: ·)
        else none
      | _ => none
    else none

/-! ### Numbers -/

/-- Digits at the start of a text, at least one, and what follows them. -/
def digits (s : List Char) : Option (List Char × List Char) :=
  let ds := s.takeWhile (Text.isDigitOf 10)
  if ds = [] then none else some (ds, s.dropWhile (Text.isDigitOf 10))

/-- The whole part of a number: zero, or digits of which the first is not zero. -/
def wholePart (s : List Char) : Option (Nat × List Char) := do
  let (ds, rest) ← digits s
  if ds.head? = some '0' ∧ ds.length > 1 then none else some (Text.digitsValue 10 0 ds, rest)

/-- The digits after a point, if there is one. -/
def fractionPart : List Char → Option (Option (List Char) × List Char)
  | '.' :: rest => (digits rest).map fun (ds, left) => (some ds, left)
  | s => some (none, s)

/-- The exponent, if there is one. -/
def exponentPart (s : List Char) : Option (Option Int × List Char) :=
  match s with
  | 'e' :: rest | 'E' :: rest =>
    match rest with
    | '-' :: rest => (digits rest).map fun (ds, left) => (some (-(Text.digitsValue 10 0 ds : Int)), left)
    | '+' :: rest => (digits rest).map fun (ds, left) => (some (Text.digitsValue 10 0 ds : Int), left)
    | rest => (digits rest).map fun (ds, left) => (some (Text.digitsValue 10 0 ds : Int), left)
  | s => some (none, s)

/-- A number, its sign read already. -/
def unsignedNumber (negative : Bool) (s : List Char) : Option (Numeral × List Char) := do
  let (whole, s) ← wholePart s
  let (fraction, s) ← fractionPart s
  let (exponent, s) ← exponentPart s
  some (⟨negative, whole, fraction, exponent⟩, s)

/-! ### Tokens -/

/-- The list or map in which reading stands. -/
inductive Container
  | array
  | object
  deriving DecidableEq, Repr

/-- What may come next. -/
inductive Expect
  /-- A value. -/
  | value
  /-- The first value of an array, or its end. -/
  | firstItem
  /-- The first key of an object, or its end. -/
  | firstKey
  /-- A key. -/
  | key
  /-- The colon after a key. -/
  | colon
  /-- What follows a value: a comma or an end. -/
  | after
  deriving DecidableEq, Repr

/-- The tokens of a text, and whether it is well formed. -/
structure Tokens where
  tokens : List Token
  intact : Bool
  deriving DecidableEq, Repr

/-- A token in front. -/
def Tokens.cons (t : Token) (ts : Tokens) : Tokens :=
  ⟨t :: ts.tokens, ts.intact⟩

/-- A fault: no tokens are left. -/
def Tokens.broken : Tokens :=
  ⟨[], false⟩

/-- The tokens of a text of at most `most` characters, read inside `open_`, innermost first. -/
def scan : (most : Nat) → (open_ : List Container) → Expect → List Char → Tokens
  | 0, open_, expect, s => ⟨[], open_ = [] ∧ expect = .after ∧ s = []⟩
  | most + 1, open_, expect, s =>
    match expect, s with
    | .after, [] => ⟨[], open_ = []⟩
    | _, [] => .broken
    | expect, c :: rest =>
      if isSpace c then scan most open_ expect rest
      else
        match expect, open_, c with
        | .after, .array :: _, ',' => scan most open_ .value rest
        | .after, .object :: _, ',' => scan most open_ .key rest
        | .after, .array :: outer, ']' => .cons .arrayEnd (scan most outer .after rest)
        | .after, .object :: outer, '\x7d' => .cons .objectEnd (scan most outer .after rest)
        | .after, _, _ => .broken
        | .firstItem, .array :: outer, ']' => .cons .arrayEnd (scan most outer .after rest)
        | .firstKey, .object :: outer, '\x7d' => .cons .objectEnd (scan most outer .after rest)
        | .firstKey, _, '"' | .key, _, '"' =>
          match pieces rest with
          | some (ps, rest) => .cons (.text ((assemble ps).map String.ofList)) (scan most open_ .colon rest)
          | none => .broken
        | .firstKey, _, _ | .key, _, _ => .broken
        | .colon, _, ':' => scan most open_ .value rest
        | .colon, _, _ => .broken
        | _, _, '[' => .cons .arrayStart (scan most (.array :: open_) .firstItem rest)
        | _, _, '\x7b' => .cons .objectStart (scan most (.object :: open_) .firstKey rest)
        | _, _, '"' =>
          match pieces rest with
          | some (ps, rest) => .cons (.text ((assemble ps).map String.ofList)) (scan most open_ .after rest)
          | none => .broken
        | _, _, '-' =>
          match unsignedNumber true rest with
          | some (n, rest) => .cons (.number n) (scan most open_ .after rest)
          | none => .broken
        | _, _, _ =>
          match Text.stripStart "null".toList s, Text.stripStart "true".toList s, Text.stripStart "false".toList s with
          | some rest, _, _ => .cons .null (scan most open_ .after rest)
          | _, some rest, _ => .cons (.bool true) (scan most open_ .after rest)
          | _, _, some rest => .cons (.bool false) (scan most open_ .after rest)
          | none, none, none =>
            match unsignedNumber false s with
            | some (n, rest) => .cons (.number n) (scan most open_ .after rest)
            | none => .broken

/-- The tokens of a text. -/
def tokens (s : String) : Tokens :=
  scan (s.length + 1) [] .value s.toList

/-! ### As events -/

/-- What a token is in a document. -/
def Token.event : Token → Event
  | .null => .scalar ⟨none, none, true, false⟩
  | .bool _ => .scalar ⟨none, none, false, false⟩
  | .number n => .scalar ⟨none, n.natural?, false, false⟩
  | .text s => .scalar ⟨s, none, false, false⟩
  | .arrayStart => .listStart
  | .arrayEnd => .listEnd
  | .objectStart => .mapStart
  | .objectEnd => .mapEnd

/-- A JSON text as a document. -/
def events (s : String) : Events :=
  let ts := tokens s
  ⟨ts.tokens.map Token.event, ts.intact, true⟩

end PodMachines.Doc.Json
