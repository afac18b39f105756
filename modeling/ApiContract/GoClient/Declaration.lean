import ApiContract.Document.Operation
import ApiContract.GoClient.Type

namespace ApiContract.GoClient

/-- A struct field for a property. -/
structure Field where
  name : String
  type : GoType
  property : String
  required : Bool
deriving Repr, DecidableEq

namespace Field

/-- The property as it stands in the tag for JSON. -/
def jsonTag (f : Field) : String :=
  if f.required then f.property else f.property ++ ",omitempty"

end Field

structure StructDeclaration where
  name : String
  description : Option String
  /-- Whether the struct embeds the common error type. -/
  embedsError : Bool
  fields : List Field
deriving Repr, DecidableEq

/-- A type that is named after another, or another name for it. -/
structure NamedDeclaration where
  name : String
  description : Option String
  target : GoType
  isAlias : Bool
deriving Repr, DecidableEq

/-- How an argument becomes text in a URL. -/
inductive Conversion where
  | identity
  | decimalFloat
  | decimalInteger
  | truncatedFloat
  | truthValue
deriving Repr, DecidableEq

def Conversion.apply (operand : String) : Conversion → String
  | identity => operand
  | decimalFloat => "strconv.FormatFloat(" ++ operand ++ ", 'f', -1, 64)"
  | decimalInteger => "strconv.FormatInt(" ++ operand ++ ", 10)"
  | truncatedFloat => "strconv.FormatInt(int64(" ++ operand ++ "), 10)"
  | truthValue => "strconv.FormatBool(" ++ operand ++ ")"

/-- A part of the URL relative to the base: text of the path or an argument. -/
inductive UrlPart where
  | literal (text : String)
  | argument (identifier : String) (conversion : Conversion)
deriving Repr, DecidableEq

structure Argument where
  identifier : String
  type : GoType
deriving Repr, DecidableEq

/-- A query parameter: its key, the argument it comes from and how it becomes text. -/
structure QueryItem where
  key : String
  identifier : String
  optional : Bool
  conversion : Conversion
deriving Repr, DecidableEq

/-- What is done with a response of one status code. -/
structure Arm where
  code : Nat
  typeName : String
deriving Repr, DecidableEq

namespace Arm

def success (a : Arm) : Bool := isSuccess a.code

/-- The variable that holds the response. -/
def identifier (a : Arm) : String := "res" ++ toString a.code

end Arm

structure MethodDeclaration where
  name : String
  description : Option String
  deprecated : Bool
  method : Method
  url : List UrlPart
  /-- The arguments after the context. -/
  arguments : List Argument
  query : List QueryItem
  hasBody : Bool
  arms : List Arm
deriving Repr, DecidableEq

namespace MethodDeclaration

/-- The arms whose responses the method returns. -/
def results (m : MethodDeclaration) : List Arm := m.arms.filter Arm.success

end MethodDeclaration

inductive Declaration where
  | client (title baseUrl : String)
  | errorResponse
  | struct (s : StructDeclaration)
  | named (n : NamedDeclaration)
  | method (m : MethodDeclaration)
deriving Repr, DecidableEq

end ApiContract.GoClient
