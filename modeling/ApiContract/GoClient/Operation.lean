import ApiContract.GoClient.Types
import ApiContract.PathTemplate

namespace ApiContract.GoClient

/-- The parameters of an operation by where they go. -/
structure Inputs where
  path : List Parameter := []
  query : List Parameter := []
  body : Option Parameter := none

/-- Sorts parameters by where they go; there is at most one body and no other location. -/
def sortInputs (inputs : Inputs) : List Parameter → Except Fault Inputs
  | [] => .ok inputs
  | p :: rest =>
    match p.location with
    | .path => sortInputs { inputs with path := inputs.path ++ [p] } rest
    | .query => sortInputs { inputs with query := inputs.query ++ [p] } rest
    | .body =>
      if inputs.body.isSome then .error ⟨[], .severalBodies⟩
      else sortInputs { inputs with body := some p } rest
    | location => .error ⟨[.parameter p.name], .unhandledLocation location⟩

/-- The packages that every method uses. -/
def methodImports : List String :=
  ["context", "encoding/json", "errors", "fmt", "io", "net/http"]

def unplacedWarning (method : Method) (path name : String) : LogLine :=
  ⟨.warn, method.name ++ " " ++ path ++ ": path parameter " ++ name ++
    " is not in the path, dropping it"⟩

/-- The type of a path argument and how it becomes text. -/
def pathArgument (p : Parameter) : Emit (GoType × Conversion) :=
  match p.primitive? with
  | some .string => return (.string, .identity)
  | some .number => do
    Emit.addImport "strconv"
    return (.float64, .decimalFloat)
  | some .integer => do
    Emit.addImport "strconv"
    return (.int64, .decimalInteger)
  | _ => Emit.fail (.unhandledPathType p.typeLabel)

/-- The URL and its arguments, in the order of the template. -/
def emitUrl (parameters : List Parameter) : List Piece → Emit (List UrlPart × List Argument)
  | [] => return ([], [])
  | .literal text :: rest => do
    let (url, arguments) ← emitUrl parameters rest
    return (.literal text :: url, arguments)
  | .parameter name :: rest =>
    match parameters.find? (·.name = name) with
    | none => emitUrl parameters rest
    | some p => do
      let identifier := argumentName p.name
      let (type, conversion) ← Emit.within (.parameter p.name) (pathArgument p)
      let (url, arguments) ← emitUrl parameters rest
      return (.argument identifier conversion :: url, ⟨identifier, type⟩ :: arguments)

/-- The type of the body: the definition it refers to, or a struct of its own. -/
def bodyType (d : Document) (operation : String) (p : Parameter) : Emit GoType :=
  match p.schema with
  | none => Emit.fail .bodyNotObject
  | some s =>
    match s.referenceName with
    | some reference => do return .pointer (← definitionType d reference)
    | none =>
      if ¬ s.hasType .object ∧ s.properties.isEmpty then Emit.fail .bodyNotObject
      else do
        let name := operation ++ "Req"
        emitStruct d name s false
        return .pointer (.named name)

def emitBody (d : Document) (operation : String) (body : Option Parameter) :
    Emit (List Argument) :=
  match body with
  | none => return []
  | some p => do
    let type ← Emit.within (.parameter p.name) (bodyType d operation p)
    Emit.addImport "bytes"
    return [⟨"req", type⟩]

/-- The type of a query argument and how it becomes text; numbers lose their fraction. -/
def queryArgument (p : Parameter) : Emit (GoType × Conversion) :=
  match p.primitive? with
  | none => Emit.fail (.unhandledQueryType p.typeLabel)
  | some .string => return (.string, .identity)
  | some .number => do
    Emit.addImport "strconv"
    return (.float64, .truncatedFloat)
  | some .integer => do
    Emit.addImport "strconv"
    return (.int64, .decimalInteger)
  | some .boolean => do
    Emit.addImport "strconv"
    return (.bool, .truthValue)

def emitQuery : List Parameter → Emit (List QueryItem × List Argument)
  | [] => return ([], [])
  | p :: rest => do
    let identifier := argumentName p.name
    let (type, conversion) ← Emit.within (.parameter p.name) (queryArgument p)
    let (query, arguments) ← emitQuery rest
    return (⟨p.name, identifier, !p.isRequired, conversion⟩ :: query,
      ⟨identifier, type.optional p.isRequired⟩ :: arguments)

/-- The type of a response; the code is left out if there is only one success. -/
def responseTypeName (operation : String) (successes code : Nat) : String :=
  if isSuccess code ∧ successes = 1 then operation ++ "Res"
  else operation ++ "Res" ++ toString code

def emitResponses (d : Document) (operation : String) (successes : Nat) :
    List (Nat × Response) → Emit (List Arm)
  | [] => return []
  | (code, r) :: rest => do
    let name := responseTypeName operation successes code
    Emit.within (.response code) <|
      if isSuccess code then emitSuccessType d name r.schema else emitErrorType d name r.schema
    let arms ← emitResponses d operation successes rest
    return ⟨code, name⟩ :: arms

/-- The method of an operation and everything it needs. -/
def emitOperation (d : Document) (path : String) (method : Method) (item : PathItem)
    (op : Operation) : Emit Unit := do
  let name := Naming.operationName op.identifier method.name path
  Emit.tell [⟨.debug, "emitting " ++ method.name ++ " " ++ path ++ " as " ++ name⟩]
  let parameters ← Emit.ofResolved (d.operationParameters item op)
  let inputs ← (fun draft => (sortInputs {} parameters, draft) : Emit Inputs)
  Emit.addImports methodImports
  let template := PathTemplate.interpolate path (inputs.path.map Parameter.name)
  Emit.tell (template.unplaced.map (unplacedWarning method path))
  let (url, pathArguments) ← emitUrl inputs.path template.pieces
  let bodyArguments ← emitBody d name inputs.body
  let (query, queryArguments) ← emitQuery inputs.query
  Emit.tell op.statusCodeLog
  let codes := op.statusCodes
  let successes := codes.countP fun (code, _) => isSuccess code
  let arms ← emitResponses d name successes codes
  Emit.declare name <| .method {
    name, method, url, query, arms
    description := op.summary.or op.description
    deprecated := op.deprecated.getD false
    arguments := pathArguments ++ bodyArguments ++ queryArguments
    hasBody := inputs.body.isSome }

end ApiContract.GoClient
