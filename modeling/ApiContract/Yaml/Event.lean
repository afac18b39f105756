import ApiContract.Yaml.Token

namespace ApiContract.Yaml

/-- Every list and record has a start and an end, and a node that is left out is an empty scalar. -/
inductive Event where
  | documentStart
  | documentEnd
  | textEnd
  | aliasOf (name : String)
  | scalar (anchor : Option String) (s : Scalar)
  | listStart (anchor tag : Option String)
  | listEnd
  | recordStart (anchor tag : Option String)
  | recordEnd
deriving Repr, DecidableEq

/-- What comes next. -/
inductive Next where
  /-- A document; only the first may begin without a mark. -/
  | document (first : Bool)
  | content
  | documentEnd
  | node
  | entry (first : Bool)
  /-- An entry of a list that is not indented more than the record it is in. -/
  | looseEntry
  | blockKey (first : Bool)
  | blockValue
  | flowEntry (first : Bool)
  /-- A record of one member among the entries of a list between brackets. -/
  | pairKey
  | pairValue
  | pairEnd
  | flowKey (first : Bool)
  | flowValue
  | noFlowValue
  | nothing
deriving Repr, DecidableEq

/-- The tokens that are left and the fault behind them, what comes next and what after that, and
what the handles of tags are short for. -/
structure Outline where
  tokens : List Token
  fault : Fault
  next : Next := .document true
  later : List Next := []
  handles : List (String × String) := []

/-- The next event, and what is left after it. -/
abbrev Outcome := Except Fault (Event × Outline)

namespace Outline

def peek (o : Outline) : Except Fault Token :=
  match o.tokens with
  | t :: _ => .ok t
  | [] => .error o.fault

def drop (o : Outline) : Outline := { o with tokens := o.tokens.drop 1 }

def andThen (o : Outline) (next : Next) : Outline := { o with next }

/-- Something has to come before `next`. -/
def before (o : Outline) (next : Next) : Outline := { o with later := next :: o.later }

/-- Goes on with what comes later. -/
def leave (o : Outline) : Outline :=
  match o.later with
  | next :: later => { o with next, later }
  | [] => { o with next := .nothing }

def emptyScalar (o : Outline) (next : Next) : Outcome :=
  .ok (.scalar none { text := "" }, o.andThen next)

def commonHandles : List (String × String) := [("!", "!"), ("!!", commonTags)]

/-- Takes the directives before a document. -/
def directives : List Token → List (String × String) → Bool →
    Except Fault (List (String × String) × List Token)
  | .directive (.version major minor) :: rest, handles, versioned =>
    if versioned then .error { problem := .repeatedVersion }
    else if major = 1 ∧ (minor = 1 ∨ minor = 2) then directives rest handles true
    else .error { problem := .incompatibleVersion }
  | .directive (.handle name start) :: rest, handles, versioned =>
    if (handles.lookup name).isSome then .error { problem := .repeatedHandle }
    else directives rest (handles ++ [(name, start)]) versioned
  | rest, handles, _ => .ok (handles, rest)

def withoutDocumentEnds : List Token → List Token
  | .documentEnd :: rest => withoutDocumentEnds rest
  | ts => ts

def document (o : Outline) (first : Bool) : Outcome := do
  let o := if first then o else { o with tokens := withoutDocumentEnds o.tokens }
  let begin_ (o : Outline) (next : Next) : Event × Outline :=
    (.documentStart, { o with next, later := [.documentEnd] })
  match ← o.peek with
  | .textEnd => return (.textEnd, o.drop.andThen .nothing)
  | .directive _ | .documentStart => do
    let (handles, tokens) ← directives o.tokens [] false
    let o := { o with tokens, handles := handles ++ commonHandles }
    match ← o.peek with
    | .documentStart => return begin_ o.drop .content
    | _ => throw { problem := .noDocumentStart }
  | _ =>
    if first then return begin_ { o with handles := commonHandles } .node
    else throw { problem := .noDocumentStart }

def documentEnd (o : Outline) : Outcome := do
  let o ← match ← o.peek with
    | .documentEnd => pure o.drop
    | _ => pure o
  return (.documentEnd, o.andThen (.document false))

/-- An anchor and a tag, in either order. -/
def properties (o : Outline) : Except Fault (Option String × Option Tag × Outline) := do
  match ← o.peek with
  | .anchor name =>
    match ← o.drop.peek with
    | .tag t => return (some name, some t, o.drop.drop)
    | _ => return (some name, none, o.drop)
  | .tag t =>
    match ← o.drop.peek with
    | .anchor name => return (some name, some t, o.drop.drop)
    | _ => return (none, some t, o.drop)
  | _ => return (none, none, o)

/-- A tag in full. -/
def resolve (o : Outline) : Option Tag → Except Fault (Option String)
  | none => .ok none
  | some t =>
    if t.handle = "" then .ok (some t.rest)
    else match o.handles.lookup t.handle with
      | some start => .ok (some (start ++ t.rest))
      | none => .error ⟨.unknownHandle, some .node⟩

/-- A node. Blocks may begin only where `block` says so, and a list that is not indented only where
`loose` does. -/
def node (o : Outline) (block loose : Bool) : Outcome := do
  match ← o.peek with
  | .aliasOf name => return (.aliasOf name, o.drop.leave)
  | _ =>
    let (anchor, short, o) ← o.properties
    let tag ← o.resolve short
    match ← o.peek with
    | .scalar text style =>
      let tag := if tag = some "!" then none else tag
      return (.scalar anchor { text, style, tag }, o.drop.leave)
    | .flowSequence => return (.listStart anchor tag, o.andThen (.flowEntry true))
    | .flowMapping => return (.recordStart anchor tag, o.andThen (.flowKey true))
    | t =>
      if loose ∧ t = .dash then return (.listStart anchor tag, o.andThen .looseEntry)
      else if block ∧ t = .blockSequence then
        return (.listStart anchor tag, o.andThen (.entry true))
      else if block ∧ t = .blockMapping then
        return (.recordStart anchor tag, o.andThen (.blockKey true))
      else if anchor.isSome ∨ tag.isSome then
        return (.scalar anchor { text := "", tag }, o.leave)
      else throw ⟨.noContent, some (if block then .blockNode else .flowNode)⟩

/-- A node, unless one of these tokens comes instead, which leaves it out. -/
def nodeUnless (o : Outline) (instead : List Token) (block loose : Bool) (next : Next) :
    Outcome := do
  if instead.contains (← o.peek) then o.emptyScalar next
  else (o.before next).node block loose

def content (o : Outline) : Outcome := do
  match ← o.peek with
  | .directive _ | .documentStart | .documentEnd | .textEnd =>
    return (.scalar none { text := "" }, o.leave)
  | _ => o.node true false

def entry (o : Outline) : Outcome := do
  match ← o.peek with
  | .dash => o.drop.nodeUnless [.dash, .blockEnd] true false (.entry false)
  | .blockEnd => return (.listEnd, o.drop.leave)
  | _ => throw ⟨.noDash, some .blockSequence⟩

def looseEntry (o : Outline) : Outcome := do
  match ← o.peek with
  | .dash => o.drop.nodeUnless [.dash, .key, .value, .blockEnd] true false .looseEntry
  | _ => return (.listEnd, o.leave)

def blockKey (o : Outline) : Outcome := do
  match ← o.peek with
  | .key => o.drop.nodeUnless [.key, .value, .blockEnd] true true .blockValue
  | .blockEnd => return (.recordEnd, o.drop.leave)
  | _ => throw ⟨.noKey, some .blockMapping⟩

def blockValue (o : Outline) : Outcome := do
  match ← o.peek with
  | .value => o.drop.nodeUnless [.key, .value, .blockEnd] true true (.blockKey false)
  | _ => o.emptyScalar (.blockKey false)

/-- Goes past the comma that must stand before all but the first. -/
def separated (o : Outline) (first : Bool) (missing : Fault) : Except Fault Outline := do
  if first then return o
  match ← o.peek with
  | .comma => return o.drop
  | _ => throw missing

def flowEntry (o : Outline) (first : Bool) : Outcome := do
  if (← o.peek) = .flowSequenceEnd then return (.listEnd, o.drop.leave)
  let o ← o.separated first ⟨.noCommaOrBracket, some .flowSequence⟩
  match ← o.peek with
  | .key => return (.recordStart none none, o.drop.andThen .pairKey)
  | .flowSequenceEnd => return (.listEnd, o.drop.leave)
  | _ => (o.before (.flowEntry false)).node false false

/-- A key that is left out takes the token in its place with it. -/
def pairKey (o : Outline) : Outcome := do
  let t ← o.peek
  if [Token.value, .comma, .flowSequenceEnd].contains t then o.drop.emptyScalar .pairValue
  else (o.before .pairValue).node false false

def pairValue (o : Outline) : Outcome := do
  match ← o.peek with
  | .value => o.drop.nodeUnless [.comma, .flowSequenceEnd] false false .pairEnd
  | _ => o.emptyScalar .pairEnd

def flowKey (o : Outline) (first : Bool) : Outcome := do
  if (← o.peek) = .flowMappingEnd then return (.recordEnd, o.drop.leave)
  let o ← o.separated first ⟨.noCommaOrBrace, some .flowMapping⟩
  match ← o.peek with
  | .key => o.drop.nodeUnless [.value, .comma, .flowMappingEnd] false false .flowValue
  | .flowMappingEnd => return (.recordEnd, o.drop.leave)
  | _ => (o.before .noFlowValue).node false false

def flowValue (o : Outline) : Outcome := do
  match ← o.peek with
  | .value => o.drop.nodeUnless [.comma, .flowMappingEnd] false false (.flowKey false)
  | _ => o.emptyScalar (.flowKey false)

def step (o : Outline) : Outcome :=
  match o.next with
  | .document first => o.document first
  | .content => o.content
  | .documentEnd => o.documentEnd
  | .node => o.node true false
  | .entry first => if first then o.drop.entry else o.entry
  | .looseEntry => o.looseEntry
  | .blockKey first => if first then o.drop.blockKey else o.blockKey
  | .blockValue => o.blockValue
  | .flowEntry first => (if first then o.drop else o).flowEntry first
  | .pairKey => o.pairKey
  | .pairValue => o.pairValue
  | .pairEnd => .ok (.recordEnd, o.andThen (.flowEntry false))
  | .flowKey first => (if first then o.drop else o).flowKey first
  | .flowValue => o.flowValue
  | .noFlowValue => o.emptyScalar (.flowKey false)
  | .nothing => .ok (.textEnd, o)

/-- At most `n` events, up to the end of the text or a fault. -/
def run : Nat → Outline → List Event × Option Fault
  | 0, _ => ([], none)
  | n + 1, o =>
    match o.step with
    | .error fault => ([], some fault)
    | .ok (.textEnd, _) => ([.textEnd], none)
    | .ok (event, o) =>
      let (events, fault) := run n o
      (event :: events, fault)

end Outline

/-- The events of a text, and the fault that ends them, if one does. No token has more than four
events. -/
def events (text : List Char) : List Event × Option Fault :=
  let (tokens, fault) := tokens text
  Outline.run (4 * tokens.length + 4)
    { tokens, fault := fault.getD { problem := .endOfText } }

end ApiContract.Yaml
