import PodMachines.Doc.Yaml.Cursor

/-!
# Scalars of YAML

The content of plain, quoted and block scalars: line breaks inside are folded, so that one becomes a space and
of several all but the first are kept, unless the style keeps lines as they are.
-/

namespace PodMachines.Doc.Yaml

/-- How a scalar is written. -/
inductive Style
  | plain
  | singleQuoted
  | doubleQuoted
  | literal
  | folded
  deriving DecidableEq, Repr

/-- The white space met since the last character of a scalar. -/
structure Gap where
  /-- Whether a line has ended. -/
  broken : Bool
  /-- Blanks before any line break. -/
  blanks : List Char
  /-- The first line break. -/
  firstBreak : List Char
  /-- The breaks after it. -/
  moreBreaks : List Char
  deriving DecidableEq, Repr

/-- No white space. -/
def Gap.none : Gap :=
  ⟨false, [], [], []⟩

/-- What white space inside a scalar amounts to. -/
def Gap.fold (g : Gap) : List Char :=
  if g.broken then
    if g.firstBreak = ['\n'] then (if g.moreBreaks = [] then [' '] else g.moreBreaks)
    else g.firstBreak ++ g.moreBreaks
  else g.blanks

/-- White space up to the next character or the end; none where a tab stands for indentation, that is before
    `indent` on a later line. -/
def readGap (indent : Nat) : (most : Nat) → Gap → Cursor → Option (Gap × Cursor)
  | 0, g, c => some (g, c)
  | most + 1, g, c =>
    match c.peek 0 with
    | some x =>
      if isGap x then
        if g.broken && decide (c.column < indent) && x = '\t' then none
        else readGap indent most (if g.broken then g else { g with blanks := g.blanks ++ [x] }) c.skip
      else if isBreak x then
        let (kept, c) := c.breakLine
        readGap indent most
          (if g.broken then { g with moreBreaks := g.moreBreaks ++ kept }
            else { g with broken := true, blanks := [], firstBreak := kept }) c
      else some (g, c)
    | Option.none => some (g, c)

/-! ### Plain scalars -/

/-- Whether a plain scalar ends here, before the character. -/
def plainEnds (inFlow : Bool) (c : Cursor) : Bool :=
  (c.isAt ':' 0 && c.wordEnds 1) || (inFlow && c.has (fun x => [',', '[', ']', '\x7b', '\x7d'].contains x) 0)

/-- Whether a colon inside a flow collection stands where none may. -/
def strayColon (inFlow : Bool) (c : Cursor) : Bool :=
  inFlow && c.isAt ':' 0 && c.has (fun x => [',', '?', '[', ']', '\x7b', '\x7d'].contains x) 1

/-- The content of a plain scalar after what is collected, whether it ended after a line break, and what
    follows it. `indent` is the first column that continues it. -/
def readPlain (inFlow : Bool) (indent : Nat) : (most : Nat) → (content : List Char) → Gap → Cursor →
    Option (List Char × Bool × Cursor)
  | 0, content, g, c => some (content, g.broken, c)
  | most + 1, content, g, c =>
    let atStart := g ≠ .none || content = []
    if atStart && (c.marksDocument '-' || c.marksDocument '.' || c.isAt '#' 0) then some (content, g.broken, c)
    else if c.wordEnds 0 then
      if c.has (fun x => isGap x || isBreak x) 0 then
        match readGap indent c.rest.length .none c with
        | some (g, c) =>
          if !inFlow && decide (c.column < indent) then some (content, g.broken, c)
          else readPlain inFlow indent most content g c
        | none => none
      else some (content, g.broken, c)
    else if strayColon inFlow c then none
    else if plainEnds inFlow c then some (content, g.broken, c)
    else
      match c.peek 0 with
      | some x => readPlain inFlow indent most (content ++ g.fold ++ [x]) .none c.skip
      | none => some (content, g.broken, c)

/-! ### Quoted scalars -/

/-- What an escape letter stands for. -/
def escapeLetter : Char → Option Char
  | '0' => some '\x00'
  | 'a' => some '\x07'
  | 'b' => some '\x08'
  | 't' => some '\t'
  | '\t' => some '\t'
  | 'n' => some '\n'
  | 'v' => some '\x0b'
  | 'f' => some '\x0c'
  | 'r' => some '\r'
  | 'e' => some '\x1b'
  | ' ' => some ' '
  | '"' => some '"'
  | '/' => some '/'
  | '\\' => some '\\'
  | 'N' => some '\u0085'
  | '_' => some '\u00a0'
  | 'L' => some '\u2028'
  | 'P' => some '\u2029'
  | _ => none

/-- How many digits follow an escape letter that writes a code point. -/
def escapeDigits : Char → Option Nat
  | 'x' => some 2
  | 'u' => some 4
  | 'U' => some 8
  | _ => none

/-- The character that an escape after a backslash writes, and what follows it. -/
def readEscape (c : Cursor) : Option (Char × Cursor) := do
  let letter ← c.peek 0
  match escapeLetter letter with
  | some x => some (x, c.skip)
  | none =>
    let count ← escapeDigits letter
    let ds := (c.rest.drop 1).take count
    if ds.length = count ∧ ds.all (Text.isDigitOf 16) = true then
      let n := Text.digitsValue 16 0 ds
      if (0xD800 ≤ n ∧ n ≤ 0xDFFF) ∨ 0x10FFFF < n then none else some (Char.ofNat n, c.skips (count + 1))
    else none

/-- The content of a quoted scalar after what is collected, and what follows its closing quote. -/
def readQuoted (single : Bool) : (most : Nat) → (content : List Char) → Gap → Cursor →
    Option (List Char × Cursor)
  | 0, _, _, _ => none
  | most + 1, content, g, c =>
    if c.marksDocument '-' || c.marksDocument '.' then none
    else
      match c.peek 0 with
      | none => none
      | some x =>
        if isGap x || isBreak x then
          match readGap 0 c.rest.length g c with
          | some (g, c) => readQuoted single most content g c
          | none => none
        else
          let content := content ++ g.fold
          if single then
            if x = '\'' then
              if c.isAt '\'' 1 then readQuoted single most (content ++ ['\'']) .none (c.skips 2)
              else some (content, c.skip)
            else readQuoted single most (content ++ [x]) .none c.skip
          else if x = '"' then some (content, c.skip)
          else if x = '\\' then
            if c.has isBreak 1 then
              readQuoted single most content { Gap.none with broken := true } c.skip.breakLine.2
            else
              match readEscape c.skip with
              | some (y, c) => readQuoted single most (content ++ [y]) .none c
              | none => none
          else readQuoted single most (content ++ [x]) .none c.skip

/-! ### Block scalars -/

/-- What becomes of the line breaks at the end of a block scalar. -/
inductive Chomping
  /-- All are dropped. -/
  | strip
  /-- One is kept. -/
  | clip
  /-- All are kept. -/
  | keep
  deriving DecidableEq, Repr

/-- A chomping mark. -/
def chompingMark (c : Cursor) : Option Chomping :=
  if c.isAt '+' 0 then some .keep else if c.isAt '-' 0 then some .strip else none

/-- An indentation mark, none if it is zero: the width, zero without a mark, and what follows. -/
def indentMark (c : Cursor) : Option (Nat × Cursor) :=
  match c.peek 0 with
  | some x =>
    if Text.isDigitOf 10 x then (if x = '0' then none else some (Text.digitValue x, c.skip)) else some (0, c)
  | none => some (0, c)

/-- The marks after the indicator of a block scalar, in either order. -/
def blockMarks (c : Cursor) : Option (Chomping × Nat × Cursor) :=
  match chompingMark c with
  | some chomping => (indentMark c.skip).map fun (width, c) => (chomping, width, c)
  | none => do
    let (width, after) ← indentMark c
    if width = 0 then some (.clip, 0, c)
    else
      match chompingMark after with
      | some chomping => some (chomping, width, after.skip)
      | none => some (.clip, width, after)

/-- Empty lines before the next line of a block scalar of indentation `indent`, zero if that is not known yet:
    their breaks, the widest indentation met, and what follows; none where a tab stands for indentation. -/
def blockBreaks (indent : Nat) : (most : Nat) → (breaks : List Char) → (widest : Nat) → Cursor →
    Option (List Char × Nat × Cursor)
  | 0, breaks, widest, c => some (breaks, widest, c)
  | most + 1, breaks, widest, c =>
    let room := if indent = 0 then c.rest.length else indent - c.column
    let c := c.skips ((c.rest.take room).takeWhile (· = ' ')).length
    let widest := max widest c.column
    if (indent = 0 ∨ c.column < indent) ∧ c.isAt '\t' 0 then none
    else if c.has isBreak 0 then
      let (kept, c) := c.breakLine
      blockBreaks indent most (breaks ++ kept) widest c
    else some (breaks, widest, c)

/-- The lines of a block scalar of indentation `indent` after what is collected: content, the break after the
    last line, the breaks of the empty lines after it, and what follows. -/
def blockLines (isLiteral : Bool) (indent : Nat) : (most : Nat) → (content lastBreak breaks : List Char) →
    (wasIndented : Bool) → Cursor → Option (List Char × List Char × List Char × Cursor)
  | 0, content, lastBreak, breaks, _, c => some (content, lastBreak, breaks, c)
  | most + 1, content, lastBreak, breaks, wasIndented, c =>
    if c.column = indent ∧ c.rest ≠ [] then
      let isIndented := c.has isGap 0
      let joint :=
        if !isLiteral && lastBreak = ['\n'] && !wasIndented && !isIndented then
          (if breaks = [] then [' '] else [])
        else lastBreak
      let line := c.rest.takeWhile (! isBreak ·)
      let (kept, c) := (c.skips line.length).breakLine
      match blockBreaks indent (c.rest.length + 1) [] 0 c with
      | some (more, _, c) => blockLines isLiteral indent most (content ++ joint ++ breaks ++ line) kept more isIndented c
      | none => none
    else some (content, lastBreak, breaks, c)

/-- The content of a block scalar inside a collection of indentation `outer`, the cursor after its indicator,
    and what follows it. -/
def readBlock (isLiteral : Bool) (outer : Int) (c : Cursor) : Option (List Char × Cursor) := do
  let (chomping, width, c) ← blockMarks c
  let c := c.skipWhile isGap
  let c := if c.isAt '#' 0 then c.skipWhile (! isBreak ·) else c
  if c.lineEnds 0 then
    let c := c.breakLine.2
    let known := if width = 0 then 0 else (if outer ≥ 0 then outer.toNat + width else width)
    let (breaks, widest, c) ← blockBreaks known (c.rest.length + 1) [] 0 c
    let indent := if known = 0 then max widest (max (outer + 1).toNat 1) else known
    let (content, lastBreak, breaks, c) ← blockLines isLiteral indent (c.rest.length + 1) [] [] breaks false c
    let content := if chomping = .strip then content else content ++ lastBreak
    some (if chomping = .keep then content ++ breaks else content, c)
  else none

end PodMachines.Doc.Yaml
