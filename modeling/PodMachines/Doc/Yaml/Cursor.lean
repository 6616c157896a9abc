import PodMachines.Text.Decimal

/-!
# A place in a YAML text

The rest of a text together with the line and column at which it starts, and the character classes of YAML.
-/

namespace PodMachines.Doc.Yaml

/-- A line break. -/
def isBreak (c : Char) : Bool :=
  c = '\n' || c = '\r' || c = '\u0085' || c = '\u2028' || c = '\u2029'

/-- A space or a tab. -/
def isGap (c : Char) : Bool :=
  c = ' ' || c = '\t'

/-- A letter, a digit, a dash or an underscore. -/
def isWord (c : Char) : Bool :=
  c.isAlphanum || c = '_' || c = '-'

/-- A character that a text may hold. -/
def isAllowed (c : Char) : Bool :=
  let n := c.toNat
  n == 0x09 || n == 0x0A || n == 0x0D || (0x20 ≤ n && n ≤ 0x7E) || n == 0x85 || (0xA0 ≤ n && n ≤ 0xFFFD) || 0x10000 ≤ n

/-- A place in a text. -/
structure Cursor where
  rest : List Char
  /-- Characters before this place. -/
  index : Nat
  line : Nat
  column : Nat
  deriving DecidableEq, Repr

namespace Cursor

/-- The start of a text. -/
def start (s : List Char) : Cursor :=
  ⟨s, 0, 0, 0⟩

/-- The character `n` places on. -/
def peek (c : Cursor) (n : Nat) : Option Char :=
  c.rest[n]?

/-- Whether a character of the class stands `n` places on. -/
def has (c : Cursor) (p : Char → Bool) (n : Nat) : Bool :=
  match c.peek n with
  | some x => p x
  | none => false

/-- Whether this character stands `n` places on. -/
def isAt (c : Cursor) (x : Char) (n : Nat) : Bool :=
  c.has (· = x) n

/-- Whether the text ends `n` places on, or a line does. -/
def lineEnds (c : Cursor) (n : Nat) : Bool :=
  (c.peek n).isNone || c.has isBreak n

/-- Whether a gap, a line break or the end of the text stands `n` places on. -/
def wordEnds (c : Cursor) (n : Nat) : Bool :=
  c.lineEnds n || c.has isGap n

/-- One character on, within the line. -/
def skip (c : Cursor) : Cursor :=
  match c.rest with
  | [] => c
  | _ :: rest => ⟨rest, c.index + 1, c.line, c.column + 1⟩

/-- Several characters on, within the line. -/
def skips (c : Cursor) : Nat → Cursor
  | 0 => c
  | n + 1 => c.skip.skips n

/-- After the characters of a class, within the line. -/
def skipWhile (c : Cursor) (p : Char → Bool) : Cursor :=
  let n := (c.rest.takeWhile p).length
  ⟨c.rest.drop n, c.index + n, c.line, c.column + n⟩

/-- The line break here as it is kept in a text, and the start of the next line; nothing if there is none. -/
def breakLine (c : Cursor) : List Char × Cursor :=
  match c.rest with
  | '\r' :: '\n' :: rest => (['\n'], ⟨rest, c.index + 2, c.line + 1, 0⟩)
  | x :: rest =>
    if x = '\n' || x = '\r' || x = '\u0085' then (['\n'], ⟨rest, c.index + 1, c.line + 1, 0⟩)
    else if isBreak x then ([x], ⟨rest, c.index + 1, c.line + 1, 0⟩)
    else ([], c)
  | [] => ([], c)

/-- Whether three of this character stand at the start of a line as a word of their own. -/
def marksDocument (c : Cursor) (x : Char) : Bool :=
  c.column = 0 && c.isAt x 0 && c.isAt x 1 && c.isAt x 2 && c.wordEnds 3

end Cursor
end PodMachines.Doc.Yaml
