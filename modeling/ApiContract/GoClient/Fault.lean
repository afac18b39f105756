import ApiContract.Document.Operation
import ApiContract.Message

namespace ApiContract.GoClient

inductive Cause where
  | unresolved (fault : ResolveFault)
  | arrayOfArrays
  | malformedArray
  | unhandledType
  | unhandledPathType (label : String)
  | unhandledQueryType (label : String)
  | unhandledLocation (location : Location)
  | bodyNotObject
  | severalBodies
  | declaredTwice (name : String)
deriving Repr, DecidableEq

def Cause.message : Cause → String
  | unresolved fault => fault.message
  | arrayOfArrays => "arrays of arrays are not supported"
  | malformedArray => "malformed array: items must be a single schema"
  | unhandledType => "unhandled schema type"
  | unhandledPathType label => "unhandled path parameter type " ++ label
  | unhandledQueryType label => "unhandled query parameter type " ++ label
  | unhandledLocation location => "unhandled parameter location " ++ location.label
  | bodyNotObject => "body parameter is not an object"
  | severalBodies => "more than one body parameter"
  | declaredTwice name => name ++ " is declared twice"

/-- A part of the document that something was found in. -/
inductive Layer where
  | definition (name : String)
  | operation (method : Method) (path : String)
  | response (code : Nat)
  | parameter (name : String)
  | property (name : String)
deriving Repr, DecidableEq

def Layer.message : Layer → String
  | definition name => "definition " ++ name
  | operation method path => method.name ++ " " ++ path
  | response code => "response " ++ toString code
  | parameter name => "parameter " ++ name
  | property name => "property " ++ name

/-- A cause and the parts that enclose it, the outermost first. -/
structure Fault where
  layers : List Layer
  cause : Cause
deriving Repr, DecidableEq

namespace Fault

def within (layer : Layer) (f : Fault) : Fault := { f with layers := layer :: f.layers }

/-- The parts and the cause, each as a message. -/
def messages (f : Fault) : List String := f.layers.map Layer.message ++ [f.cause.message]

def chain (f : Fault) : String := ": ".intercalate f.messages

end Fault

end ApiContract.GoClient
