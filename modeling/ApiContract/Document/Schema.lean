import ApiContract.Json.Basic
import ApiContract.Text.Search

namespace ApiContract

/-- The values of the keyword `type`. -/
inductive TypeName where
  | string
  | number
  | integer
  | boolean
  | array
  | object
  | null
  | file
deriving Repr, DecidableEq

namespace TypeName

def all : List TypeName := [string, number, integer, boolean, array, object, null, file]

def label : TypeName → String
  | string => "string"
  | number => "number"
  | integer => "integer"
  | boolean => "boolean"
  | array => "array"
  | object => "object"
  | null => "null"
  | file => "file"

end TypeName

/-- A type alone or a list of types. -/
inductive TypeSet where
  | single (type : TypeName)
  | several (types : List TypeName)
deriving Repr, DecidableEq

def TypeSet.has : TypeSet → TypeName → Bool
  | single t, type => t = type
  | several ts, type => ts.contains type

/-- The items of an array: one schema for all of them or a schema for each position. -/
inductive Items (α : Type) where
  | single (schema : α)
  | tuple (schemas : List α)
deriving Repr

/-- A schema. Members that nothing interprets are in `extra`. -/
structure Schema where
  reference : Option String := none
  types : Option TypeSet := none
  format : Option String := none
  description : Option String := none
  nullable : Option Bool := none
  properties : List (String × Schema) := []
  required : List String := []
  items : Option (Items Schema) := none
  extra : List (String × Json) := []
deriving Repr, Inhabited

inductive Primitive where
  | string
  | number
  | integer
  | boolean
deriving Repr, DecidableEq

namespace Primitive

def all : List Primitive := [string, number, integer, boolean]

def type : Primitive → TypeName
  | string => .string
  | number => .number
  | integer => .integer
  | boolean => .boolean

end Primitive

/-- What a schema describes. A reference counts before anything that stands beside it. -/
inductive Kind where
  | reference (name : String)
  | array
  | object
  | primitive (p : Primitive)
  | unhandled
deriving Repr, DecidableEq

/-- What precedes the name of a definition in a reference. -/
def definitionsRoot : String := "#/definitions/"

/-- The text after `start`, or all of it if it does not begin so. -/
def withoutStart (start s : String) : String :=
  match Text.dropStart? start.toList s.toList with
  | some rest => String.ofList rest
  | none => s

/-- The definition that the text of a reference names; the empty text refers to nothing. -/
def referenceName (reference : Option String) : Option String :=
  match reference with
  | some path => if path = "" then none else some (withoutStart definitionsRoot path)
  | none => none

def hasType (types : Option TypeSet) (type : TypeName) : Bool :=
  match types with
  | some ts => ts.has type
  | none => false

/-- The kind of a schema, from its reference, its types and whether it has properties. A schema
without types is an object if it has properties. -/
def kindOf (reference : Option String) (types : Option TypeSet) (hasProperties : Bool) : Kind :=
  match referenceName reference with
  | some name => .reference name
  | none =>
    if hasType types .array then .array
    else if hasType types .object ∨ (types = none ∧ hasProperties) then .object
    else match Primitive.all.find? (hasType types ·.type) with
      | some p => .primitive p
      | none => .unhandled

namespace Schema

/-- The schema that refers to a definition. -/
def referTo (name : String) : Schema := { reference := some (definitionsRoot ++ name) }

def referenceName (s : Schema) : Option String := ApiContract.referenceName s.reference

def hasType (s : Schema) (type : TypeName) : Bool := ApiContract.hasType s.types type

def kind (s : Schema) : Kind := kindOf s.reference s.types (!s.properties.isEmpty)

def isArray (s : Schema) : Bool := s.kind = .array

def isObject (s : Schema) : Bool :=
  s.kind = .object || (s.referenceName = none && s.hasType .object)

def isRequired (s : Schema) (property : String) : Bool := s.required.contains property

/-- The schema of all items, if there is a single one. -/
def singleItems (s : Schema) : Option Schema :=
  match s.items with
  | some (.single item) => some item
  | _ => none

end Schema

end ApiContract
