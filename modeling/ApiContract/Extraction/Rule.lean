import ApiContract.Document.Operation
import ApiContract.Document.Reading
import ApiContract.Json.Text
import ApiContract.Source.JsonText

namespace ApiContract.Extraction

open Source

/-- Moves the schema at a property path of a response into a definition. -/
structure Rule where
  path : String
  method : Method
  code : Nat
  property : String
  definition : String
deriving Repr, DecidableEq

namespace Rule

def fields : List String := ["path", "method", "responses", "prop", "become_ref"]

def set (r : Rule) (name : String) (v : Source) : Except DecodeFault Rule :=
  match name with
  | "path" => do return { r with path := ← Source.text .json v }
  | "method" => do return { r with method := ← Method.read .json v }
  | "responses" => do return { r with code := ← Source.code v }
  | "prop" => do return { r with property := ← Source.text .json v }
  | "become_ref" => do return { r with definition := ← Source.text .json v }
  | _ => .ok r

def reader : RecordReader Rule where
  name := "ExtractRule"
  known := fields
  required := ["path", "method", "responses", "become_ref"]
  start := ⟨"", .get, 0, "", ""⟩
  keep := none
  set := set

def json (r : Rule) : Json :=
  .object [("path", .string r.path), ("method", .string r.method.name),
    ("responses", .number (.integer r.code)), ("prop", .string r.property),
    ("become_ref", .string r.definition)]

end Rule

/-- What may follow the last field of a record that is given as a list. -/
def readEnd (rest : List Source) (fault : Option TextFault) : Except DecodeFault Unit :=
  match rest, fault with
  | [], none => .ok ()
  | [], some (.json .endInList) => .error (.malformed (.json .endInList))
  | [], some (.json .trailingComma) => .error (.malformed (.json .trailingComma))
  | _, _ => .error (.malformed (.json .trailingCharacters))

/-- Reads the fields of a record from a list, in their order; a field that may be missing is passed
over at the end of the list. -/
def readInOrder {α : Type} (r : RecordReader α) (fault : Option TextFault) (place : Nat) :
    List String → List Source → α → Except DecodeFault α
  | [], rest, a => do
    readEnd rest fault
    return a
  | field :: fields, v :: rest, a => do
    let a ← r.set a field v
    readInOrder r fault (place + 1) fields rest a
  | field :: fields, [], a =>
    match fault with
    | some fault => .error (.malformed fault)
    | none =>
      if field ∈ r.required then
        let count :=
          if r.known.length = 1 then "1 element" else toString r.known.length ++ " elements"
        .error (.wrongLength place ("struct " ++ r.name ++ " with " ++ count))
      else readInOrder r none (place + 1) fields [] a

/-- A record, or the list of its fields. -/
def readRecordOrList {α : Type} (r : RecordReader α) (v : Source) : Except DecodeFault α :=
  match v with
  | .list items fault => readInOrder r fault 0 r.known items r.start
  | v => r.read .json v

structure RuleSet where
  rules : List Rule
deriving Repr, DecidableEq

namespace RuleSet

def reader : RecordReader RuleSet where
  name := "ExtractConfig"
  known := ["extractions"]
  required := []
  start := ⟨[]⟩
  keep := none
  set _ _ v := do return ⟨← Source.items .json (readRecordOrList Rule.reader) v⟩

/-- Members of the rules document that no rule has are passed over. -/
def plan : Plan :=
  .record [("extractions", .each (.record (Rule.fields.map fun f => (f, .whole))))]

def ofText (text : String) : Except DecodeFault RuleSet :=
  readJson plan (readRecordOrList reader) text

def json (rs : RuleSet) : Json := .object [("extractions", .array (rs.rules.map Rule.json))]

end RuleSet

end ApiContract.Extraction
