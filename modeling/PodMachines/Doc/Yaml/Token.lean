import PodMachines.Doc.Yaml.Scalar

/-!
# Tokens of YAML

The tokens of a YAML text, taken from the front one by one. Block collections have no brackets of their own;
their starts and ends follow from columns. A key is known to be one only at the colon behind it, so a token
is not given out while it may still turn out to begin a key.
-/

namespace PodMachines.Doc.Yaml

/-- A token. -/
inductive Token
  | streamStart
  | streamEnd
  | version (major minor : Nat)
  | tagShorthand (handle leading : List Char)
  | documentStart
  | documentEnd
  | blockListStart
  | blockMapStart
  | blockEnd
  | flowListStart
  | flowListEnd
  | flowMapStart
  | flowMapEnd
  | blockEntry
  | flowEntry
  | key
  | value
  | alias_ (name : List Char)
  | anchor (name : List Char)
  | tag (handle suffix : List Char)
  | scalar (content : List Char) (style : Style)
  deriving DecidableEq, Repr

/-- A token that may turn out to be a key. -/
structure Candidate where
  possible : Bool
  /-- Whether nothing else than a key may stand there. -/
  needed : Bool
  /-- Its place among all tokens. -/
  number : Nat
  index : Nat
  line : Nat
  column : Nat
  deriving DecidableEq, Repr

/-- No candidate. -/
def Candidate.absent : Candidate :=
  ⟨false, false, 0, 0, 0, 0⟩

/-- How far the tokens of a text have been read. -/
structure Tokens where
  cursor : Cursor
  started : Bool
  ended : Bool
  /-- The candidates of the open flow collections, innermost first, and of the block around them. -/
  candidates : List Candidate
  /-- Open flow collections. -/
  flow : Nat
  /-- The column of the innermost block collection, `-1` outside all. -/
  indent : Int
  /-- The columns of the block collections around it. -/
  outer : List Int
  /-- Whether a key may start here. -/
  keyAllowed : Bool
  /-- Tokens read and not given out. -/
  queue : List Token
  /-- How many tokens have been given out. -/
  taken : Nat
  deriving DecidableEq, Repr

namespace Tokens

/-- The tokens of a text, none read. -/
def ofChars (s : List Char) : Tokens :=
  ⟨.start s, false, false, [], 0, -1, [], false, [], 0⟩

/-- A token behind those that are read. -/
def push (t : Tokens) (token : Token) : Tokens :=
  { t with queue := t.queue ++ [token] }

/-- A token at a place among all tokens. -/
def insertAt (t : Tokens) (number : Nat) (token : Token) : Tokens :=
  let n := number - t.taken
  { t with queue := t.queue.take n ++ token :: t.queue.drop n }

/-- Candidates that lie on an earlier line or too far back are none; a needed one may not lapse. -/
def dropStale (t : Tokens) : Option Tokens := do
  let candidates ← t.candidates.mapM fun k =>
    if k.possible && (decide (k.line < t.cursor.line) || decide (k.index + 1024 < t.cursor.index)) then
      (if k.needed then none else some { k with possible := false })
    else some k
  some { t with candidates }

/-- The innermost candidate is given up; a needed one may not be. -/
def dropCandidate (t : Tokens) : Option Tokens :=
  match t.candidates with
  | k :: ks =>
    if k.possible && k.needed then none else some { t with candidates := { k with possible := false } :: ks }
  | [] => some t

/-- The next token becomes the innermost candidate, where a key may start. -/
def noteCandidate (t : Tokens) : Option Tokens :=
  if t.keyAllowed then do
    let t ← t.dropCandidate
    let k : Candidate := ⟨true, t.flow = 0 && t.indent = t.cursor.column, t.taken + t.queue.length, t.cursor.index,
      t.cursor.line, t.cursor.column⟩
    some { t with candidates := k :: t.candidates.tail }
  else some t

/-- Block collections that start right of a column end, `most` being open. -/
def closeBlocks (column : Int) : (most : Nat) → Tokens → Tokens
  | 0, t => t
  | most + 1, t =>
    if t.indent > column then
      match t.outer with
      | indent :: outer => closeBlocks column most { (t.push .blockEnd) with indent, outer }
      | [] => t
    else t

/-- Block collections that start right of a column end. -/
def unroll (t : Tokens) (column : Int) : Tokens :=
  if t.flow > 0 then t else closeBlocks column t.outer.length t

/-- A block collection starts at a column right of the open ones; its start is the token of the number. -/
def roll (t : Tokens) (column : Nat) (number : Option Nat) (token : Token) : Tokens :=
  if t.flow = 0 && decide (t.indent < column) then
    let t := { t with indent := column, outer := t.indent :: t.outer }
    match number with
    | some n => t.insertAt n token
    | none => t.push token
  else t

/-! ### Blanks and comments -/

/-- After blanks, comments and line ends. -/
def skipBlank : (most : Nat) → Tokens → Tokens
  | 0, t => t
  | most + 1, t =>
    let c := t.cursor.skipWhile fun x => x = ' ' || ((t.flow > 0 || !t.keyAllowed) && x = '\t')
    let c := if c.isAt '#' 0 then c.skipWhile (! isBreak ·) else c
    if c.has isBreak 0 then
      skipBlank most { t with cursor := c.breakLine.2, keyAllowed := t.keyAllowed || t.flow = 0 }
    else { t with cursor := c }

/-! ### Directives, anchors and tags -/

/-- Letters, digits, dashes and underscores. -/
def word (c : Cursor) : List Char × Cursor :=
  (c.rest.takeWhile isWord, c.skipWhile isWord)

/-- A part of a version number. -/
def versionPart (c : Cursor) : Option (Nat × Cursor) :=
  let ds := c.rest.takeWhile (Text.isDigitOf 10)
  if ds = [] ∨ ds.length > 9 then none
  else some (Text.digitsValue 10 0 ds, c.skipWhile (Text.isDigitOf 10))

/-- A tag handle: an exclamation mark, or a word between two. -/
def tagHandle (inDirective : Bool) (c : Cursor) : Option (List Char × Cursor) :=
  if c.isAt '!' 0 then
    let (name, after) := word c.skip
    if after.isAt '!' 0 then some ('!' :: name ++ ['!'], after.skip)
    else if inDirective && name ≠ [] then none
    else some ('!' :: name, after)
  else none

/-- A character of a tag besides words and escapes. -/
def isTagMark (verbatim : Bool) (x : Char) : Bool :=
  [';', '/', '?', ':', '@', '&', '=', '+', '$', '.', '%', '!', '~', '*', '\'', '(', ')'].contains x ||
    (verbatim && [',', '[', ']'].contains x)

/-- The bytes of a run of escapes of two digits each that write one character, and what follows them. -/
def tagEscape (c : Cursor) : Option (List Char × Cursor) := do
  let octet (c : Cursor) : Option (Nat × Cursor) :=
    match c.rest with
    | '%' :: a :: b :: _ =>
      if Text.isDigitOf 16 a && Text.isDigitOf 16 b then some (Text.digitsValue 16 0 [a, b], c.skips 3) else none
    | _ => none
  let isTail (n : Nat) : Bool := n / 64 = 2
  let (a, c) ← octet c
  if a < 0x80 then some ([Char.ofNat a], c)
  else if a / 32 = 6 then
    let (b, c) ← octet c
    if isTail b then some ([Char.ofNat (a % 32 * 64 + b % 64)], c) else none
  else if a / 16 = 14 then
    let (b, c) ← octet c
    let (d, c) ← octet c
    if isTail b && isTail d then some ([Char.ofNat ((a % 16 * 64 + b % 64) * 64 + d % 64)], c) else none
  else if a / 8 = 30 then
    let (b, c) ← octet c
    let (d, c) ← octet c
    let (e, c) ← octet c
    if isTail b && isTail d && isTail e then
      some ([Char.ofNat (((a % 8 * 64 + b % 64) * 64 + d % 64) * 64 + e % 64)], c)
    else none
  else none

/-- The rest of a tag after what is collected. -/
def tagRest (verbatim : Bool) : (most : Nat) → (content : List Char) → Cursor → Option (List Char × Cursor)
  | 0, content, c => some (content, c)
  | most + 1, content, c =>
    if c.isAt '%' 0 then
      match tagEscape c with
      | some (xs, c) => tagRest verbatim most (content ++ xs) c
      | none => none
    else
      match c.peek 0 with
      | some x => if isWord x || isTagMark verbatim x then tagRest verbatim most (content ++ [x]) c.skip else some (content, c)
      | none => some (content, c)

/-- A tag of at least one character, `head` standing before it. -/
def tagText (verbatim : Bool) (head : List Char) (c : Cursor) : Option (List Char × Cursor) := do
  let (content, after) ← tagRest verbatim (c.rest.length + 1) head.tail c
  if head = [] ∧ content = [] then none else some (content, after)

/-- A tag: handle and suffix, and what follows it. -/
def tag (inFlow : Bool) (c : Cursor) : Option (Token × Cursor) := do
  let (token, c) ←
    if c.isAt '<' 1 then do
      let (suffix, c) ← tagText true [] (c.skips 2)
      if c.isAt '>' 0 then some (Token.tag [] suffix, c.skip) else none
    else do
      let (handle, c) ← tagHandle false c
      if handle.length > 1 ∧ handle.getLast? = some '!' then
        let (suffix, c) ← tagText false [] c
        some (Token.tag handle suffix, c)
      else
        let (suffix, c) ← tagText false handle c
        some (if suffix = [] then Token.tag [] ['!'] else Token.tag ['!'] suffix, c)
  if (inFlow && c.isAt ',' 0) || c.wordEnds 0 then some (token, c) else none

/-- The name of an anchor or alias, the indicator being read, and what follows it. -/
def anchorName (c : Cursor) : Option (List Char × Cursor) :=
  let (name, after) := word c
  if name = [] then none
  else if after.wordEnds 0 || after.has (fun x => ['?', ':', ',', ']', '\x7d', '%', '@', '\x60'].contains x) 0 then
    some (name, after)
  else none

/-- A directive and the rest of its line, the percent sign being read. -/
def directive (c : Cursor) : Option (Token × Cursor) := do
  let (name, c) := word c
  let (token, c) ←
    if c.wordEnds 0 ∧ name = "YAML".toList then do
      let (major, c) ← versionPart (c.skipWhile isGap)
      if c.isAt '.' 0 then
        let (minor, c) ← versionPart c.skip
        some (Token.version major minor, c)
      else none
    else if c.wordEnds 0 ∧ name = "TAG".toList then do
      let (handle, c) ← tagHandle true (c.skipWhile isGap)
      if c.has isGap 0 then
        let (leading, c) ← tagText true [] (c.skipWhile isGap)
        if c.wordEnds 0 then some (Token.tagShorthand handle leading, c) else none
      else none
    else none
  let c := c.skipWhile isGap
  let c := if c.isAt '#' 0 then c.skipWhile (! isBreak ·) else c
  if c.lineEnds 0 then some (token, c.breakLine.2) else none

/-! ### Reading one token -/

/-- A one-character token at the cursor. -/
def sign (t : Tokens) (token : Token) : Tokens :=
  { (t.push token) with cursor := t.cursor.skip }

/-- The end of the text. -/
def readEnd (t : Tokens) : Option Tokens := do
  let cursor := if t.cursor.column = 0 then t.cursor else { t.cursor with column := 0, line := t.cursor.line + 1 }
  let t ← ({ t with cursor }.unroll (-1)).dropCandidate
  some { (t.push .streamEnd) with keyAllowed := false, ended := true }

/-- A line that starts with a percent sign. -/
def readDirective (t : Tokens) : Option Tokens := do
  let t ← (t.unroll (-1)).dropCandidate
  let (token, cursor) ← directive t.cursor.skip
  some { (t.push token) with keyAllowed := false, cursor }

/-- Three dashes or dots. -/
def readDocumentMark (t : Tokens) (token : Token) : Option Tokens := do
  let t ← (t.unroll (-1)).dropCandidate
  some { (t.push token) with keyAllowed := false, cursor := t.cursor.skips 3 }

/-- An opening bracket. -/
def readOpening (t : Tokens) (token : Token) : Option Tokens := do
  let t ← t.noteCandidate
  some { (t.sign token) with candidates := .absent :: t.candidates, flow := t.flow + 1, keyAllowed := true }

/-- A closing bracket. -/
def readClosing (t : Tokens) (token : Token) : Option Tokens := do
  let t ← t.dropCandidate
  let t := t.sign token
  if t.flow > 0 then some { t with candidates := t.candidates.tail, flow := t.flow - 1, keyAllowed := false }
  else some { t with keyAllowed := false }

/-- A comma between the entries of a flow collection. -/
def readFlowEntry (t : Tokens) : Option Tokens := do
  let t ← t.dropCandidate
  some { (t.sign .flowEntry) with keyAllowed := true }

/-- A dash before an entry of a block list. -/
def readBlockEntry (t : Tokens) : Option Tokens := do
  if t.flow = 0 ∧ t.keyAllowed = false then none
  else
    let t ← (t.roll t.cursor.column none .blockListStart).dropCandidate
    some { (t.sign .blockEntry) with keyAllowed := true }

/-- A question mark before a key. -/
def readKey (t : Tokens) : Option Tokens := do
  if t.flow = 0 ∧ t.keyAllowed = false then none
  else
    let t ← (t.roll t.cursor.column none .blockMapStart).dropCandidate
    some { (t.sign .key) with keyAllowed := t.flow = 0 }

/-- A colon before a value: the candidate, if there is one, was its key. -/
def readValue (t : Tokens) : Option Tokens :=
  match t.candidates with
  | k :: ks =>
    if k.possible then
      let t := { t with candidates := { k with possible := false } :: ks }
      let t := (t.insertAt k.number .key).roll k.column (some k.number) .blockMapStart
      some { (t.sign .value) with keyAllowed := false }
    else if t.flow = 0 ∧ t.keyAllowed = false then none
    else
      let t := t.roll t.cursor.column none .blockMapStart
      some { (t.sign .value) with keyAllowed := t.flow = 0 }
  | [] => none

/-- An anchor or an alias. -/
def readAnchor (t : Tokens) (make : List Char → Token) : Option Tokens := do
  let t ← t.noteCandidate
  let (name, cursor) ← anchorName t.cursor.skip
  some { (t.push (make name)) with keyAllowed := false, cursor }

/-- A tag. -/
def readTag (t : Tokens) : Option Tokens := do
  let t ← t.noteCandidate
  let (token, cursor) ← tag (t.flow > 0) t.cursor
  some { (t.push token) with keyAllowed := false, cursor }

/-- A block scalar. -/
def readBlockScalar (t : Tokens) (style : Style) : Option Tokens := do
  let t ← t.dropCandidate
  let (content, cursor) ← readBlock (style = .literal) t.indent t.cursor.skip
  some { (t.push (.scalar content style)) with keyAllowed := true, cursor }

/-- A quoted scalar. -/
def readQuotedScalar (t : Tokens) (style : Style) : Option Tokens := do
  let t ← t.noteCandidate
  let c := t.cursor.skip
  let (content, cursor) ← readQuoted (style = .singleQuoted) (c.rest.length + 1) [] .none c
  some { (t.push (.scalar content style)) with keyAllowed := false, cursor }

/-- A plain scalar. A line break after it lets a key follow. -/
def readPlainScalar (t : Tokens) : Option Tokens := do
  let t ← t.noteCandidate
  let (content, broken, cursor) ←
    readPlain (t.flow > 0) (t.indent + 1).toNat (t.cursor.rest.length + 1) [] .none t.cursor
  some { (t.push (.scalar content .plain)) with keyAllowed := broken, cursor }

/-- Whether a plain scalar may start at the cursor. -/
def startsPlain (t : Tokens) (x : Char) : Bool :=
  let c := t.cursor
  !(c.wordEnds 0 || ['-', '?', ':', ',', '[', ']', '\x7b', '\x7d', '#', '&', '*', '!', '|', '>', '\'', '"', '%', '@',
      '\x60'].contains x) ||
    (x = '-' && !c.has isGap 1) || (t.flow = 0 && (x = '?' || x = ':') && !c.wordEnds 1)

/-- Reads one token. -/
def read (t : Tokens) : Option Tokens :=
  if !t.started then
    some { (t.push .streamStart) with started := true, keyAllowed := true, candidates := [.absent], indent := -1 }
  else do
    let t ← (t.skipBlank (t.cursor.rest.length + 1)).dropStale
    let t := t.unroll t.cursor.column
    let c := t.cursor
    match c.peek 0 with
    | none => t.readEnd
    | some x =>
      if c.column = 0 ∧ x = '%' then t.readDirective
      else if c.marksDocument '-' then t.readDocumentMark .documentStart
      else if c.marksDocument '.' then t.readDocumentMark .documentEnd
      else if x = '[' then t.readOpening .flowListStart
      else if x = '\x7b' then t.readOpening .flowMapStart
      else if x = ']' then t.readClosing .flowListEnd
      else if x = '\x7d' then t.readClosing .flowMapEnd
      else if x = ',' then t.readFlowEntry
      else if x = '-' ∧ c.wordEnds 1 then t.readBlockEntry
      else if x = '?' ∧ (t.flow > 0 ∨ c.wordEnds 1) then t.readKey
      else if x = ':' ∧ (t.flow > 0 ∨ c.wordEnds 1) then t.readValue
      else if x = '*' then t.readAnchor .alias_
      else if x = '&' then t.readAnchor .anchor
      else if x = '!' then t.readTag
      else if x = '|' ∧ t.flow = 0 then t.readBlockScalar .literal
      else if x = '>' ∧ t.flow = 0 then t.readBlockScalar .folded
      else if x = '\'' then t.readQuotedScalar .singleQuoted
      else if x = '"' then t.readQuotedScalar .doubleQuoted
      else if t.startsPlain x then t.readPlainScalar
      else none

/-- Reads until the first token is certain, in at most `most` steps. -/
def settle : (most : Nat) → Tokens → Option Tokens
  | 0, _ => none
  | most + 1, t =>
    if t.queue.isEmpty then
      match t.read with
      | some t => settle most t
      | none => none
    else
      match t.dropStale with
      | none => none
      | some t =>
        if t.candidates.any fun k => k.possible && k.number = t.taken then
          match t.read with
          | some t => settle most t
          | none => none
        else some t

/-- The next token, which stays. -/
def peek (t : Tokens) : Option (Token × Tokens) := do
  let t ← t.settle (2 * t.cursor.rest.length + t.queue.length + 4)
  match t.queue with
  | token :: _ => some (token, t)
  | [] => none

/-- After the next token. -/
def drop (t : Tokens) : Tokens :=
  { t with queue := t.queue.tail, taken := t.taken + 1 }

end Tokens
end PodMachines.Doc.Yaml
