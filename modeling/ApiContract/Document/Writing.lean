import ApiContract.Document.Basic
import ApiContract.Json.Text

namespace ApiContract

/-- The member of a field that may be absent. -/
def present {α : Type} (name : String) (write : α → Json) : Option α → List (String × Json)
  | some a => [(name, write a)]
  | none => []

def TypeName.json (t : TypeName) : Json := .string t.label

def TypeSet.json : TypeSet → Json
  | single t => t.json
  | several ts => .array (ts.map TypeName.json)

namespace Schema

mutual

def json : Schema → Json
  | ⟨reference, types, format, description, nullable, properties, required, items, extra⟩ =>
    .object <|
      present "$ref" .string reference ++ present "type" TypeSet.json types ++
      present "format" .string format ++ present "description" .string description ++
      present "nullable" .bool nullable ++
      (if properties.isEmpty then [] else [("properties", .object (jsonMembers properties))]) ++
      (if required.isEmpty then [] else [("required", .array (required.map .string))]) ++
      jsonItems items ++ extra

def jsonMembers : List (String × Schema) → List (String × Json)
  | [] => []
  | (k, s) :: rest => (k, json s) :: jsonMembers rest

def jsonItems : Option (Items Schema) → List (String × Json)
  | none => []
  | some (.single s) => [("items", json s)]
  | some (.tuple ss) => [("items", .array (jsonList ss))]

def jsonList : List Schema → List Json
  | [] => []
  | s :: rest => json s :: jsonList rest

end

end Schema

def Parameter.json (p : Parameter) : Json :=
  .object <|
    [("name", .string p.name), ("in", .string p.location.label)] ++
    present "description" .string p.description ++ [("required", .bool p.required)] ++
    present "type" TypeName.json p.type ++ present "format" .string p.format ++
    present "schema" Schema.json p.schema ++ p.extra

def ParameterEntry.json : ParameterEntry → Json
  | reference path => .object [("$ref", .string path)]
  | inline p => p.json

/-- The member of a list that is left out when it is empty. -/
def listMember {α : Type} (name : String) (write : α → Json) (as : List α) : List (String × Json) :=
  if as.isEmpty then [] else [(name, .array (as.map write))]

/-- The member of a map that is left out when it is empty. -/
def mapMember {α : Type} (name : String) (write : α → Json) (m : Members α) :
    List (String × Json) :=
  if m.isEmpty then [] else [(name, .object (m.map fun (k, a) => (k, write a)))]

def Response.json (r : Response) : Json :=
  .object <|
    (if r.description = "" then [] else [("description", .string r.description)]) ++
    present "schema" Schema.json r.schema ++ r.extra

def Operation.json (op : Operation) : Json :=
  .object <|
    present "operationId" .string op.identifier ++ present "summary" .string op.summary ++
    present "description" .string op.description ++ listMember "tags" .string op.tags ++
    listMember "parameters" ParameterEntry.json op.parameters ++
    mapMember "responses" Response.json op.responses ++
    present "deprecated" .bool op.deprecated ++ op.extra

def PathItem.json (item : PathItem) : Json :=
  .object <|
    listMember "parameters" ParameterEntry.json item.parameters ++
    (Method.all.flatMap fun m => present m.key Operation.json (item.operation m)) ++ item.extra

def Info.json (i : Info) : Json :=
  .object <|
    [("title", .string i.title)] ++ present "description" .string i.description ++
    [("version", .string i.version)] ++ i.extra

namespace Document

def json (d : Document) : Json :=
  .object <|
    [("swagger", .string d.swagger)] ++ present "info" Info.json d.info ++
    present "host" .string d.host ++ present "basePath" .string d.basePath ++
    mapMember "paths" PathItem.json d.paths ++
    mapMember "definitions" Schema.json d.definitions ++
    mapMember "parameters" Parameter.json d.parameters ++ d.extra

/-- The document as text, which ends in a newline. -/
def text (d : Document) : String := d.json.pretty ++ "\n"

end Document

end ApiContract
