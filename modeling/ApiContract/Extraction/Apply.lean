import ApiContract.Document.Writing
import ApiContract.Extraction.Rule
import ApiContract.Extraction.Slot
import ApiContract.Message
import ApiContract.Text.Diff.Unified

namespace ApiContract.Extraction

/-- What a rule did. -/
inductive Outcome where
  | inserted
  | reused
  | alreadyReferenced
deriving Repr, DecidableEq

def Outcome.label : Outcome → String
  | inserted => "Inserted"
  | reused => "Reused"
  | alreadyReferenced => "AlreadyReferenced"

inductive Fault where
  | unknownPath (path : String)
  | noOperation (path : String) (method : Method)
  | noResponse (path : String) (method : Method) (code : Nat)
  | noSchema (path : String) (method : Method) (code : Nat)
  | property (rule : Rule) (cause : ResolveFault)
  /-- The definition exists and is another one; both are given as text. -/
  | conflict (name existing extracted : String)
deriving Repr, DecidableEq

def Fault.message : Fault → String
  | unknownPath path => "unknown path " ++ path
  | noOperation path method => "no " ++ method.name ++ " operation on " ++ path
  | noResponse path method code =>
    method.name ++ " " ++ path ++ ": no response with status code " ++ toString code
  | noSchema path method code =>
    method.name ++ " " ++ path ++ ": response " ++ toString code ++ " has no schema"
  | property rule _ =>
    rule.method.name ++ " " ++ rule.path ++ ": response " ++ toString rule.code ++ ": property " ++
      Text.quoted rule.property
  | conflict name existing extracted =>
    "conflicting redefinition of " ++ name ++ ":\n" ++
      Text.Diff.unified existing extracted "existing" "extracted"

/-- The text by which schemas are compared: members by name. -/
def canonicalText (s : Schema) : String := s.json.canonical.pretty

/-- Where the rest of a path starts: in the response of the rule, or in a definition. -/
structure Origin where
  definition : Option String
  offset : Nat
deriving Repr, DecidableEq

def responseSchema (d : Document) (rule : Rule) : Except Fault Schema :=
  match d.paths.find? rule.path with
  | none => .error (.unknownPath rule.path)
  | some item =>
    match item.operation rule.method with
    | none => .error (.noOperation rule.path rule.method)
    | some op =>
      match op.response rule.code with
      | none => .error (.noResponse rule.path rule.method rule.code)
      | some r =>
        match r.schema with
        | none => .error (.noSchema rule.path rule.method rule.code)
        | some s => .ok s

def setResponseSchema (d : Document) (rule : Rule) (s : Schema) : Document :=
  match d.paths.find? rule.path with
  | none => d
  | some item =>
    match item.operation rule.method with
    | none => d
    | some op =>
      match op.response rule.code with
      | none => d
      | some r =>
        let responses :=
          Members.insert op.responses (toString rule.code) { r with schema := some s }
        let item := item.setOperation rule.method (some { op with responses })
        { d with paths := Members.insert d.paths rule.path item }

namespace Origin

def schema (o : Origin) (d : Document) (rule : Rule) : Except Fault Schema :=
  match o.definition with
  | none => responseSchema d rule
  | some name =>
    match d.definitions.find? name with
    | some s => .ok s
    | none => .error (.property rule (.unknownDefinition name))

def setSchema (o : Origin) (d : Document) (rule : Rule) (s : Schema) : Document :=
  match o.definition with
  | none => setResponseSchema d rule s
  | some name => { d with definitions := Members.insert d.definitions name s }

end Origin

/-- A definition and how many steps of a path are behind it. -/
abbrev Station := String × Nat

/-- All stations of a path. -/
def stations (d : Document) (steps : List String) : List Station :=
  d.definitions.names.flatMap fun name => (List.range steps.length).map (name, ·)

/-- All stations but one. -/
def without (station : Station) (all : List Station) : List Station :=
  all.filter (· ≠ station)

theorem length_without_lt {station : Station} {all : List Station} (h : station ∈ all) :
    (without station all).length < all.length := by
  induction all with
  | nil => simp at h
  | cons other rest ih =>
    by_cases he : other = station
    · have := List.length_filter_le (fun x => decide (x ≠ station)) rest
      simp [without, he] at *
      omega
    · have := ih (by simpa [Ne.symm he] using h)
      simp [without, he] at *
      omega

def followed (rule : Rule) (name : String) : LogLine :=
  ⟨.debug, rule.method.name ++ " " ++ rule.path ++ ": following $ref to " ++ name⟩

/-- Follows references until none stands in the way, or one leads back to a station that was visited
before; `unvisited` are the others. -/
def walk (d : Document) (rule : Rule) (steps : List String) (unvisited : List Station)
    (o : Origin) : List LogLine × Except Fault Origin :=
  match o.schema d rule with
  | .error fault => ([], .error fault)
  | .ok s =>
    match hop? s (steps.drop o.offset) with
    | none => ([], .ok o)
    | some hop =>
      let next : Origin := ⟨some hop.name, o.offset + hop.skipped⟩
      if (d.definitions.find? hop.name).isNone then
        ([followed rule hop.name], .error (.property rule (.unknownDefinition hop.name)))
      else if (hop.name, next.offset) ∈ unvisited then
        let (log, found) := walk d rule steps (without (hop.name, next.offset) unvisited) next
        (followed rule hop.name :: log, found)
      else ([], .ok o)
termination_by unvisited.length
decreasing_by exact length_without_lt (by assumption)

/-- The document after a rule, what the rule did, and what was told. -/
structure Applied where
  document : Document
  result : Except Fault Outcome
  log : List LogLine

/-- Puts the reference in place of the schema at a slot, unless another definition has the name. -/
def factor (d : Document) (rule : Rule) (o : Origin) (root : Schema) (slot : Slot) (s : Schema) :
    Document × Except Fault Outcome :=
  if s.referenceName = some rule.definition then (d, .ok .alreadyReferenced)
  else
    let replaced := o.setSchema d rule (slot.replace root (.referTo rule.definition))
    match d.definitions.find? rule.definition with
    | some existing =>
      if canonicalText existing = canonicalText s then (replaced, .ok .reused)
      else (d, .error (.conflict rule.definition (canonicalText existing) (canonicalText s)))
    | none =>
      ({ replaced with definitions := Members.insert replaced.definitions rule.definition s },
        .ok .inserted)

/-- Applies one rule. -/
def applyRule (d : Document) (rule : Rule) : Applied :=
  let steps := splitSteps rule.property
  let (log, found) := walk d rule steps (stations d steps) ⟨none, 0⟩
  let (document, result) :=
    match found with
    | .error fault => (d, .error fault)
    | .ok o =>
      match o.schema d rule with
      | .error fault => (d, .error fault)
      | .ok root =>
        match locate root (steps.drop o.offset) with
        | .error cause => (d, .error (.property rule cause))
        | .ok slot =>
          match slot.schema? root with
          | none => (d, .error (.property rule (.noSuchProperty slot.name)))
          | some s => factor d rule o root slot s
  ⟨document, result, log⟩

def applied (rule : Rule) (outcome : Outcome) : LogLine :=
  ⟨.debug, rule.method.name ++ " " ++ rule.path ++ " " ++ toString rule.code ++ " " ++
    Text.quoted rule.property ++ " -> " ++ rule.definition ++ ": " ++ outcome.label⟩

structure Extracted where
  document : Document
  result : Except Fault Unit
  log : List LogLine

/-- Applies rules in order up to the first that fails. -/
def applyRules (d : Document) : List Rule → Extracted
  | [] => ⟨d, .ok (), []⟩
  | rule :: rest =>
    let one := applyRule d rule
    match one.result with
    | .error fault => ⟨one.document, .error fault, one.log⟩
    | .ok outcome =>
      let all := applyRules one.document rest
      { all with log := one.log ++ applied rule outcome :: all.log }

def summary (d : Document) (rules : List Rule) : LogLine :=
  ⟨.info, "applied " ++ toString rules.length ++ " extraction rules, " ++
    toString d.definitions.length ++ " definitions"⟩

/-- Applies a list of rules and, if none fails, says how many. -/
def extract (d : Document) (rules : List Rule) : Extracted :=
  let all := applyRules d rules
  match all.result with
  | .ok () => { all with log := all.log ++ [summary all.document rules] }
  | .error _ => all

end ApiContract.Extraction
