import ApiContract.Document.Basic
import ApiContract.Naming

namespace ApiContract

def Kind.label : Kind → String
  | .reference _ => "ref"
  | .array => "array"
  | .object => "object"
  | .primitive _ => "primitive"
  | .unhandled => "unhandled"

namespace Document

def textOrNull (s : Option String) : Json := (s.map Json.string).getD .null

def count (n : Nat) : Json := .number (.integer n)

def definitionSummary (name : String) (s : Schema) : Json :=
  .object [("name", .string name), ("kind", .string s.kind.label),
    ("properties", count s.properties.length)]

def operationSummary (path : String) (m : Method) (op : Operation) : Json :=
  .object [("name", .string (Naming.operationName op.identifier m.name path)),
    ("method", .string m.name), ("path", .string path),
    ("responses", .array (op.statusCodes.map fun (code, _) => count code))]

/-- Title and version, address, definitions by name, and operations by path and method. -/
def summary (d : Document) : Json :=
  .object [
    ("info", .object [("title", textOrNull (d.info.map Info.title)),
      ("version", textOrNull (d.info.map Info.version))]),
    ("base_url", textOrNull d.defaultBaseUrl),
    ("definitions", .array (d.sortedDefinitions.map fun (name, s) => definitionSummary name s)),
    ("operations", .array (d.operations.map fun (path, _, m, op) => operationSummary path m op))]

end Document

end ApiContract
