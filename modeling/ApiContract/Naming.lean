import ApiContract.Text.Words

namespace ApiContract.Naming

open Text

/-- Underscores and characters that are not alphanumeric end a segment. -/
def separates (c : Char) : Bool :=
  c = '_' || !isAlphanumeric c

def raiseFirst : List Char → List Char
  | [] => []
  | c :: rest => toUppercase c ++ rest

/-- `foo_bar` is spelt `FooBar`; all but the first character of a segment stays as written, so
acronyms survive. -/
def camelCase (name : String) : String :=
  String.ofList ((pieces separates name.toList).flatMap raiseFirst)

/-- The fragments `-an-` and `-a-` say nothing. -/
def withoutArticles (name : String) : String :=
  String.ofList (replaceAll "-a-".toList ['-'] (replaceAll "-an-".toList ['-'] name.toList))

/-- The type of an object that stands as property `property` of the type `parent`. -/
def nestedTypeName (parent property : String) : String :=
  parent ++ "_" ++ camelCase property

/-- The type of the elements of array property `property` of the type `parent`. -/
def elementTypeName (parent property : String) : String :=
  nestedTypeName parent property ++ "Item"

/-- A plural without one English plural ending. -/
def singular (word : List Char) : List Char :=
  match (dropEnd? "ies".toList word).filter (· ≠ []) with
  | some stem => stem ++ ['y']
  | none =>
    if ["sses", "xes", "zes", "ches", "shes"].any (fun e => e.toList.isSuffixOf word) then
      word.take (word.length - 2)
    else match dropEnd? ['s'] word with
      | some stem => if stem ≠ [] ∧ stem.getLast? ≠ some 's' then stem else word
      | none => word

def isPlaceholder (segment : List Char) : Bool :=
  segment.head? = some '{' && segment.getLast? = some '}'

/-- The verb that begins a route's name. -/
def routeVerb (method : String) (single : Bool) : String :=
  match String.ofList (method.toList.map Char.toUpper) with
  | "GET" => if single then "Get" else "List"
  | "POST" => "Create"
  | "PUT" => "Update"
  | other => pascalCase other

/-- The literal segments of a route; the last is singular when the route ends in a placeholder. -/
def routeWords (single : Bool) : List (List Char) → List (List Char)
  | [] => []
  | [last] => [if single then singular last else last]
  | segment :: rest => segment :: routeWords single rest

/-- The name of an operation that has no identifier: `GET /orgs/{org}/members` is
`ListOrgsMembers`, `DELETE /orgs/{org}` is `DeleteOrg`. -/
def routeName (method path : String) : String :=
  let segments := (pieces (· = '/') path.toList).filter (· ≠ [])
  let single := (segments.getLast?.map isPlaceholder).getD false
  let literals := segments.filter (·.head? ≠ some '{')
  routeVerb method single ++
    String.join ((routeWords single literals).map fun w => pascalCase (String.ofList w))

/-- The name of an operation: from its identifier if it has one, else from its route. -/
def operationName (identifier : Option String) (method path : String) : String :=
  match identifier.filter (· ≠ "") with
  | some name => pascalCase (withoutArticles name)
  | none => routeName method path

end ApiContract.Naming
