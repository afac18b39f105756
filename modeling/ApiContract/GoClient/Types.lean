import ApiContract.Document.Basic
import ApiContract.GoClient.Emit
import ApiContract.GoClient.Lexical

namespace ApiContract.GoClient

open Naming

/-- The type of a definition that must exist. -/
def definitionType (d : Document) (reference : String) : Emit GoType := do
  let (name, _) ← Emit.ofResolved (d.definition reference)
  return .named (camelCase name)

def declareStruct (s : StructDeclaration) : Emit Unit := Emit.declare s.name (.struct s)

def declareNamed (n : NamedDeclaration) : Emit Unit := Emit.declare n.name (.named n)

/-- Declares a struct once its fields are known. The name must be free from the start. -/
def structWith (name : String) (description : Option String) (embedsError : Bool)
    (fields : Emit (List Field)) : Emit Unit := do
  Emit.requireFree name
  let fields ← fields
  declareStruct ⟨name, description, embedsError, fields⟩

mutual

/-- The fields of a struct, one for each property. -/
def fieldsOf (d : Document) (parent : String) (required : List String) :
    List (String × Schema) → Emit (List Field)
  | [] => return []
  | (property, s) :: rest => do
    let isRequired := required.contains property
    let type ← Emit.within (.property property) (fieldType d parent property isRequired s)
    let fields ← fieldsOf d parent required rest
    return ⟨fieldName property, type, property, isRequired⟩ :: fields

/-- The type of a field. A missing value is nil, which a slice of structs can be by itself. -/
def fieldType (d : Document) (parent property : String) (isRequired : Bool) : Schema → Emit GoType
  | ⟨reference, types, _, description, _, properties, required, items, _⟩ =>
    match kindOf reference types (!properties.isEmpty) with
    | .reference name => do return (← definitionType d name).optional isRequired
    | .primitive p => return (GoType.ofPrimitive p).optional isRequired
    | .object => do
      let nested := nestedTypeName parent property
      structWith nested description false (fieldsOf d nested required properties)
      return (GoType.named nested).optional isRequired
    | .array => do
      let element ← elementType d (elementTypeName parent property) items
      if element.isPrimitive then return element.slice.optional isRequired
      else return element.slice
    | .unhandled => Emit.fail .unhandledType

def elementType (d : Document) (itemName : String) : Option (Items Schema) → Emit GoType
  | some (.single item) => elementOf d itemName item
  | _ => Emit.fail .malformedArray

def elementOf (d : Document) (itemName : String) : Schema → Emit GoType
  | ⟨reference, types, _, description, _, properties, required, _, _⟩ =>
    match kindOf reference types (!properties.isEmpty) with
    | .primitive p => return GoType.ofPrimitive p
    | .object => do
      structWith itemName description false (fieldsOf d itemName required properties)
      return .named itemName
    | .reference name => definitionType d name
    | .array => Emit.fail .arrayOfArrays
    | .unhandled => Emit.fail .unhandledType

end

/-- A struct for an object schema. -/
def emitStruct (d : Document) (name : String) (s : Schema) (embedsError : Bool) : Emit Unit :=
  structWith name s.description embedsError (fieldsOf d name s.required s.properties)

/-- A type for any schema: a struct for an object, another name for a reference, a slice for an
array and a named primitive otherwise. A schema without types and properties is an empty struct. -/
def emitNamed (d : Document) (name : String) (s : Schema) : Emit Unit := do
  Emit.requireFree name
  match s.kind with
  | .object => emitStruct d name s false
  | .reference reference =>
    let target ← definitionType d reference
    declareNamed ⟨name, s.description, target, true⟩
  | .array =>
    let element ← elementType d (name ++ "Item") s.items
    declareNamed ⟨name, s.description, element.slice, false⟩
  | .primitive p => declareNamed ⟨name, s.description, .ofPrimitive p, false⟩
  | .unhandled =>
    if s.types = none then declareStruct ⟨name, s.description, false, []⟩
    else Emit.fail .unhandledType

/-- The type of a definition. -/
def emitDefinition (d : Document) (name : String) (s : Schema) : Emit Unit :=
  emitNamed d (camelCase name) s

/-- The type of a failure: a struct with the common error type in it. Of a reference, or without a
schema, it holds nothing else. -/
def emitErrorType (d : Document) (name : String) (s : Option Schema) : Emit Unit :=
  match s with
  | none => declareStruct ⟨name, none, true, []⟩
  | some s =>
    match s.kind with
    | .reference _ => declareStruct ⟨name, none, true, []⟩
    | .object => emitStruct d name s true
    | _ => Emit.fail .unhandledType

/-- The type of a success; without a schema it is an empty struct. -/
def emitSuccessType (d : Document) (name : String) (s : Option Schema) : Emit Unit :=
  match s with
  | some s => emitNamed d name s
  | none => declareStruct ⟨name, none, false, []⟩

end ApiContract.GoClient
