import ApiContract.Document.Operation

namespace ApiContract

structure Info where
  title : String := ""
  description : Option String := none
  version : String := ""
  extra : Members Json := []
deriving Repr

structure Document where
  swagger : String
  info : Option Info := none
  host : Option String := none
  basePath : Option String := none
  paths : Members PathItem := []
  definitions : Members Schema := []
  parameters : Members Parameter := []
  extra : Members Json := []
deriving Repr

namespace Document

/-- The definition that a reference names, by its path or by its bare name. -/
def definition (d : Document) (reference : String) : Except ResolveFault (String × Schema) :=
  let name := withoutStart definitionsRoot reference
  match d.definitions.find? name with
  | some s => .ok (name, s)
  | none => .error (.unknownDefinition name)

def sortedDefinitions (d : Document) : Members Schema := d.definitions.sorted

def sortedPaths (d : Document) : Members PathItem := d.paths.sorted

/-- The address that the document describes, if it names a host. -/
def defaultBaseUrl (d : Document) : Option String :=
  (d.host.filter (· ≠ "")).map fun host => "https://" ++ host ++ d.basePath.getD ""

/-- Two parameters are the same one when they share name and location. -/
def sameParameter (p q : Parameter) : Bool := p.name = q.name && p.location = q.location

/-- Takes the place of the first parameter that is the same one, or goes to the end. -/
def override : List Parameter → Parameter → List Parameter
  | [], p => [p]
  | q :: rest, p => if sameParameter q p then p :: rest else q :: override rest p

/-- The parameters of an operation: those of its path, overridden by its own. -/
def operationParameters (d : Document) (item : PathItem) (op : Operation) :
    Except ResolveFault (List Parameter) := do
  let shared ← item.parameters.mapM (·.resolve d.parameters)
  let own ← op.parameters.mapM (·.resolve d.parameters)
  return own.foldl override shared

/-- Every operation of the document, by path and method. -/
def operations (d : Document) : List (String × PathItem × Method × Operation) :=
  d.sortedPaths.flatMap fun (path, item) => item.operations.map fun (m, op) => (path, item, m, op)

end Document

end ApiContract
