import PodMachines.Doc.Yaml.Token

/-!
# Steps of YAML documents

The tokens of a YAML text grouped into documents, collections and scalars. Each kind of place in a collection
is a `Goal`; the goals that remain when the current one is met wait on a stack.
-/

namespace PodMachines.Doc.Yaml

/-- One step of the documents of a text. -/
inductive Step
  | streamStart
  | streamEnd
  | documentStart
  | documentEnd
  | alias_ (name : List Char)
  | scalar (anchor : Option (List Char)) (tag : Option (List Char)) (content : List Char) (style : Style)
  | listStart (anchor : Option (List Char))
  | listEnd
  | mapStart (anchor : Option (List Char))
  | mapEnd
  deriving DecidableEq, Repr

/-- What is to be read next. -/
inductive Goal
  | stream
  | firstDocument
  | document
  | documentContent
  | documentEnd
  | blockNode
  | blockListFirst
  | blockListEntry
  | indentlessEntry
  | blockMapFirst
  | blockMapKey
  | blockMapValue
  | flowListFirst
  | flowListEntry
  | pairKey
  | pairValue
  | pairEnd
  | flowMapFirst
  | flowMapKey
  | flowMapValue
  | flowMapNoValue
  | finished
  deriving DecidableEq, Repr

/-- How far the steps of a text have been read. -/
structure Steps where
  tokens : Tokens
  goal : Goal
  waiting : List Goal
  /-- The tag shorthands of the current document. -/
  shorthands : List (List Char × List Char)
  deriving DecidableEq, Repr

/-- A scalar that is not written. -/
def Step.nothing : Step :=
  .scalar none none [] .plain

/-- The shorthands that every document has. -/
def standardShorthands : List (List Char × List Char) :=
  [("!".toList, "!".toList), ("!!".toList, "tag:yaml.org,2002:".toList)]

namespace Steps

/-- The steps of a text, none read. -/
def ofChars (s : List Char) : Steps :=
  ⟨.ofChars s, .stream, [], []⟩

/-- The next token, which stays. -/
def peek (s : Steps) : Option (Token × Steps) :=
  s.tokens.peek.map fun (token, tokens) => (token, { s with tokens })

/-- After the next token. -/
def drop (s : Steps) : Steps :=
  { s with tokens := s.tokens.drop }

/-- Back to the goal that waits. -/
def pop (s : Steps) : Steps :=
  match s.waiting with
  | goal :: waiting => { s with goal, waiting }
  | [] => { s with goal := .finished }

/-- A goal that waits. -/
def push (s : Steps) (goal : Goal) : Steps :=
  { s with waiting := goal :: s.waiting }

/-- The full text of a tag. -/
def tagOf (s : Steps) (handle suffix : List Char) : Option (List Char) :=
  if handle = [] then some suffix
  else ((s.shorthands.find? (·.1 = handle)).map (·.2 ++ suffix))

/-- Properties before a node: anchor and tag in either order, each at most once. -/
def properties (s : Steps) (token : Token) :
    Option (Option (List Char) × Option (List Char × List Char) × Token × Steps) :=
  match token with
  | .anchor name => do
    let (token, s) ← s.drop.peek
    match token with
    | .tag handle suffix => do
      let (token, s) ← s.drop.peek
      some (some name, some (handle, suffix), token, s)
    | _ => some (some name, none, token, s)
  | .tag handle suffix => do
    let (token, s) ← s.drop.peek
    match token with
    | .anchor name => do
      let (token, s) ← s.drop.peek
      some (some name, some (handle, suffix), token, s)
    | _ => some (none, some (handle, suffix), token, s)
  | _ => some (none, none, token, s)

/-- A node: an alias, a scalar or the start of a collection. Block collections may start only in a block, and a
    block list without indentation only as a value in a block map. -/
def node (isBlock allowsIndentless : Bool) (s : Steps) : Option (Step × Steps) := do
  let (token, s) ← s.peek
  match token with
  | .alias_ name => some (.alias_ name, s.pop.drop)
  | _ =>
    let (anchor, tagParts, token, s) ← s.properties token
    let tag ←
      match tagParts with
      | some (handle, suffix) => (s.tagOf handle suffix).map some
      | none => some none
    match token with
    | .blockEntry =>
      if allowsIndentless then some (.listStart anchor, { s with goal := .indentlessEntry })
      else if anchor.isSome || tag.isSome then some (.scalar anchor tag [] .plain, s.pop)
      else none
    | .scalar content style => some (.scalar anchor tag content style, s.pop.drop)
    | .flowListStart => some (.listStart anchor, { s with goal := .flowListFirst })
    | .flowMapStart => some (.mapStart anchor, { s with goal := .flowMapFirst })
    | .blockListStart =>
      if isBlock then some (.listStart anchor, { s with goal := .blockListFirst })
      else if anchor.isSome || tag.isSome then some (.scalar anchor tag [] .plain, s.pop)
      else none
    | .blockMapStart =>
      if isBlock then some (.mapStart anchor, { s with goal := .blockMapFirst })
      else if anchor.isSome || tag.isSome then some (.scalar anchor tag [] .plain, s.pop)
      else none
    | _ => if anchor.isSome || tag.isSome then some (.scalar anchor tag [] .plain, s.pop) else none

/-- Nothing stands where a node may, and `goal` comes next. -/
def omitted (s : Steps) (goal : Goal) : Option (Step × Steps) :=
  some (.nothing, { s with goal })

/-- The directives before a document. Of versions there may be one, 1.1 or 1.2; a shorthand may be set once. -/
def directives : (most : Nat) → (versioned : Bool) → (own : List (List Char × List Char)) → Steps → Option Steps
  | 0, _, _, _ => none
  | most + 1, versioned, own, s => do
    let (token, s) ← s.peek
    match token with
    | .version major minor =>
      if versioned || major ≠ 1 || (minor ≠ 1 && minor ≠ 2) then none else directives most true own s.drop
    | .tagShorthand handle leading =>
      if own.any (·.1 = handle) then none else directives most versioned (own ++ [(handle, leading)]) s.drop
    | _ => some { s with shorthands := own ++ standardShorthands.filter fun d => !own.any (·.1 = d.1) }

/-- Past the marks that end documents. -/
def skipDocumentEnds : (most : Nat) → Steps → Option Steps
  | 0, _ => none
  | most + 1, s => do
    let (token, s) ← s.peek
    if token = .documentEnd then skipDocumentEnds most s.drop else some s

/-- The start of a document, which needs three dashes except for the first. -/
def documentStart (isFirst : Bool) (s : Steps) : Option (Step × Steps) := do
  let room := s.tokens.cursor.rest.length + s.tokens.queue.length + 2
  let s ← if isFirst then some s else s.skipDocumentEnds room
  let (token, s) ← s.peek
  let bare :=
    match token with
    | .version .. | .tagShorthand .. | .documentStart | .streamEnd => false
    | _ => true
  if isFirst && bare then
    let s ← s.directives room false []
    some (.documentStart, { s.push .documentEnd with goal := .blockNode })
  else if token = .streamEnd then some (.streamEnd, { s.drop with goal := .finished })
  else
    let s ← s.directives room false []
    let (token, s) ← s.peek
    if token = .documentStart then some (.documentStart, { (s.push .documentEnd).drop with goal := .documentContent })
    else none

/-- The next entry of a block list, or its end. -/
def blockListEntry (s : Steps) : Option (Step × Steps) := do
  let (token, s) ← s.peek
  match token with
  | .blockEntry =>
    let (token, s) ← s.drop.peek
    match token with
    | .blockEntry | .blockEnd => s.omitted .blockListEntry
    | _ => (s.push .blockListEntry).node true false
  | .blockEnd => some (.listEnd, s.pop.drop)
  | _ => none

/-- The next entry of a block list without indentation, or its end. -/
def indentlessEntry (s : Steps) : Option (Step × Steps) := do
  let (token, s) ← s.peek
  match token with
  | .blockEntry =>
    let (token, s) ← s.drop.peek
    match token with
    | .blockEntry | .key | .value | .blockEnd => s.omitted .indentlessEntry
    | _ => (s.push .indentlessEntry).node true false
  | _ => some (.listEnd, s.pop)

/-- The next key of a block map, or its end. -/
def blockMapKey (s : Steps) : Option (Step × Steps) := do
  let (token, s) ← s.peek
  match token with
  | .key =>
    let (token, s) ← s.drop.peek
    match token with
    | .key | .value | .blockEnd => s.omitted .blockMapValue
    | _ => (s.push .blockMapValue).node true true
  | .blockEnd => some (.mapEnd, s.pop.drop)
  | _ => none

/-- The value of a key of a block map. -/
def blockMapValue (s : Steps) : Option (Step × Steps) := do
  let (token, s) ← s.peek
  match token with
  | .value =>
    let (token, s) ← s.drop.peek
    match token with
    | .key | .value | .blockEnd => s.omitted .blockMapKey
    | _ => (s.push .blockMapKey).node true true
  | _ => s.omitted .blockMapKey

/-- The next entry of a flow list, or its end. A key makes the entry a map of one pair. -/
def flowListEntry (isFirst : Bool) (s : Steps) : Option (Step × Steps) := do
  let (token, s) ← s.peek
  if token = .flowListEnd then some (.listEnd, s.pop.drop)
  else
    let (token, s) ←
      if isFirst then some (token, s) else if token = .flowEntry then s.drop.peek else none
    match token with
    | .key => some (.mapStart none, { s.drop with goal := .pairKey })
    | .flowListEnd => some (.listEnd, s.pop.drop)
    | _ => (s.push .flowListEntry).node false false

/-- The key of a pair in a flow list. -/
def pairKey (s : Steps) : Option (Step × Steps) := do
  let (token, s) ← s.peek
  match token with
  | .value | .flowEntry | .flowListEnd => s.drop.omitted .pairValue
  | _ => (s.push .pairValue).node false false

/-- The value of a pair in a flow list. -/
def pairValue (s : Steps) : Option (Step × Steps) := do
  let (token, s) ← s.peek
  match token with
  | .value =>
    let (token, s) ← s.drop.peek
    match token with
    | .flowEntry | .flowListEnd => s.omitted .pairEnd
    | _ => (s.push .pairEnd).node false false
  | _ => s.omitted .pairEnd

/-- The next key of a flow map, or its end. -/
def flowMapKey (isFirst : Bool) (s : Steps) : Option (Step × Steps) := do
  let (token, s) ← s.peek
  if token = .flowMapEnd then some (.mapEnd, s.pop.drop)
  else
    let (token, s) ←
      if isFirst then some (token, s) else if token = .flowEntry then s.drop.peek else none
    match token with
    | .key =>
      let (token, s) ← s.drop.peek
      match token with
      | .value | .flowEntry | .flowMapEnd => s.omitted .flowMapValue
      | _ => (s.push .flowMapValue).node false false
    | .flowMapEnd => some (.mapEnd, s.pop.drop)
    | _ => (s.push .flowMapNoValue).node false false

/-- The value of a key of a flow map. -/
def flowMapValue (s : Steps) : Option (Step × Steps) := do
  let (token, s) ← s.peek
  match token with
  | .value =>
    let (token, s) ← s.drop.peek
    match token with
    | .flowEntry | .flowMapEnd => s.omitted .flowMapKey
    | _ => (s.push .flowMapKey).node false false
  | _ => s.omitted .flowMapKey

/-- The next step. -/
def next (s : Steps) : Option (Step × Steps) :=
  match s.goal with
  | .stream => do
    let (_, s) ← s.peek
    some (.streamStart, { s.drop with goal := .firstDocument })
  | .firstDocument => s.documentStart true
  | .document => s.documentStart false
  | .documentContent => do
    let (token, s) ← s.peek
    match token with
    | .version .. | .tagShorthand .. | .documentStart | .documentEnd | .streamEnd => some (.nothing, s.pop)
    | _ => s.node true false
  | .documentEnd => do
    let (token, s) ← s.peek
    let s := if token = .documentEnd then s.drop else s
    some (.documentEnd, { s with goal := .document, shorthands := [] })
  | .blockNode => s.node true false
  | .blockListFirst => s.drop.blockListEntry
  | .blockListEntry => s.blockListEntry
  | .indentlessEntry => s.indentlessEntry
  | .blockMapFirst => s.drop.blockMapKey
  | .blockMapKey => s.blockMapKey
  | .blockMapValue => s.blockMapValue
  | .flowListFirst => s.drop.flowListEntry true
  | .flowListEntry => s.flowListEntry false
  | .pairKey => s.pairKey
  | .pairValue => s.pairValue
  | .pairEnd => some (.mapEnd, { s with goal := .flowListEntry })
  | .flowMapFirst => s.drop.flowMapKey true
  | .flowMapKey => s.flowMapKey false
  | .flowMapValue => s.flowMapValue
  | .flowMapNoValue => do
    let (_, s) ← s.peek
    s.omitted .flowMapKey
  | .finished => none

end Steps
end PodMachines.Doc.Yaml
