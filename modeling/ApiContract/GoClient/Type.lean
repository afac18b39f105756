import ApiContract.Document.Schema

namespace ApiContract

inductive GoType where
  | string
  | float64
  | int64
  | bool
  | named (name : String)
  | slice (element : GoType)
  | pointer (target : GoType)
deriving Repr, DecidableEq, Inhabited

namespace GoType

def ofPrimitive : Primitive → GoType
  | .string => string
  | .number => float64
  | .integer => int64
  | .boolean => bool

def isPrimitive : GoType → Bool
  | string | float64 | int64 | bool => true
  | _ => false

def text : GoType → String
  | string => "string"
  | float64 => "float64"
  | int64 => "int64"
  | bool => "bool"
  | named name => name
  | slice element => "[]" ++ element.text
  | pointer target => "*" ++ target.text

/-- The declared type that a type expression mentions, if it mentions one. -/
def mentioned : GoType → Option String
  | named name => some name
  | slice t | pointer t => t.mentioned
  | _ => none

/-- A value that may be missing is a pointer. -/
def optional (required : Bool) (t : GoType) : GoType := if required then t else pointer t

end GoType

end ApiContract
