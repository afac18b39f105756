import ApiContract.GoClient.Operation
import ApiContract.GoClient.Rendering

namespace ApiContract.GoClient

structure Options where
  package : String := "client"
  /-- The address used when the caller of the client gives none. -/
  baseUrl : Option String := none
deriving Repr, DecidableEq

def surfaceImports : List String := ["fmt", "net/http", "net/url", "strings"]

/-- The client type, its constructor and the common error type. -/
def emitSurface (d : Document) (options : Options) : Emit Unit := do
  let baseUrl := (options.baseUrl.or d.defaultBaseUrl).getD ""
  if baseUrl = "" then
    Emit.tell [⟨.warn, "document has no host and no base URL is configured"⟩]
  Emit.addImports surfaceImports
  Emit.declare "Client" (.client ((d.info.map Info.title).getD "") baseUrl)
  Emit.declare "ErrorResponse" .errorResponse

def emitDefinitions (d : Document) : Members Schema → Emit Unit
  | [] => return ()
  | (name, s) :: rest => do
    Emit.within (.definition name) (emitDefinition d name s)
    emitDefinitions d rest

def emitOperations (d : Document) : List (String × PathItem × Method × Operation) → Emit Unit
  | [] => return ()
  | (path, item, method, op) :: rest => do
    Emit.within (.operation method path) (emitOperation d path method item op)
    emitOperations d rest

def summary (d : Document) : LogLine :=
  ⟨.info, "generated " ++ toString d.definitions.length ++ " definitions and " ++
    toString d.operations.length ++ " operations"⟩

/-- Definitions by name, then operations by path and method. -/
def emitClient (d : Document) (options : Options) : Emit Unit := do
  emitSurface d options
  emitDefinitions d d.sortedDefinitions
  emitOperations d d.operations
  Emit.tell [summary d]

/-- A draft with nothing in it. -/
def start (options : Options) : Draft := ⟨{ package := options.package }, []⟩

/-- The finished file, or why there is none, and what was told on the way. -/
def generate (d : Document) (options : Options) :
    Except Fault (File Declaration) × List LogLine :=
  match emitClient d options (start options) with
  | (.ok (), draft) => (.ok draft.file, draft.log)
  | (.error fault, draft) => (.error fault, draft.log)

/-- The name of the file that is generated. -/
def clientFile : String := "client.go"

def fileText (f : File Declaration) : String := f.text Declaration.text

end ApiContract.GoClient
