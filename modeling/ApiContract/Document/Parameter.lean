import ApiContract.Document.Schema
import ApiContract.Message

namespace ApiContract

inductive Location where
  | path
  | query
  | header
  | body
  | formData
deriving Repr, DecidableEq

namespace Location

def all : List Location := [path, query, header, body, formData]

def label : Location → String
  | path => "path"
  | query => "query"
  | header => "header"
  | body => "body"
  | formData => "formData"

end Location

structure Parameter where
  name : String
  location : Location
  description : Option String := none
  required : Bool := false
  type : Option TypeName := none
  format : Option String := none
  schema : Option Schema := none
  extra : Members Json := []
deriving Repr

namespace Parameter

/-- Path parameters are required whatever the document says. -/
def isRequired (p : Parameter) : Bool := p.required || p.location = .path

def primitive? (p : Parameter) : Option Primitive :=
  p.type.bind fun t => Primitive.all.find? (·.type = t)

/-- The type as a message names it. -/
def typeLabel (p : Parameter) : String := (p.type.map TypeName.label).getD "none"

end Parameter

/-- What precedes the name of a shared parameter in a reference. -/
def parametersRoot : String := "#/parameters/"

inductive ParameterEntry where
  | reference (path : String)
  | inline (parameter : Parameter)
deriving Repr

namespace ParameterEntry

def isReference : ParameterEntry → Bool
  | reference _ => true
  | inline _ => false

/-- The parameter itself, looked up among the shared ones if it is given by reference. -/
def resolve (shared : Members Parameter) : ParameterEntry → Except ResolveFault Parameter
  | inline p => .ok p
  | reference path =>
    match Text.dropStart? parametersRoot.toList path.toList with
    | none => .error (.invalidReference path)
    | some rest =>
      match shared.find? (String.ofList rest) with
      | some p => .ok p
      | none => .error (.unknownParameter (String.ofList rest))

end ParameterEntry

end ApiContract
