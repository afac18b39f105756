import ApiContract.GoClient.Fault
import ApiContract.Members
import ApiContract.Message

namespace ApiContract.GoClient

/-- Declarations under pairwise different names in the order in which they came, and the packages
they import. -/
structure File (α : Type) where
  package : String
  /-- Sorted, each package once. -/
  imports : List String := []
  declarations : Members α := []

namespace File

variable {α : Type}

def insertImport (path : String) : List String → List String
  | [] => [path]
  | p :: rest =>
    if path = p then p :: rest
    else if path < p then path :: p :: rest
    else p :: insertImport path rest

def addImport (f : File α) (path : String) : File α :=
  { f with imports := insertImport path f.imports }

def names (f : File α) : List String := f.declarations.names

def declares (f : File α) (name : String) : Bool := f.names.contains name

/-- Adds a declaration under a name that is still free. -/
def push (f : File α) (name : String) (declaration : α) : Except Fault (File α) :=
  if f.declares name then .error ⟨[], .declaredTwice name⟩
  else .ok { f with declarations := f.declarations ++ [(name, declaration)] }

def importText (imports : List String) : String :=
  if imports.isEmpty then ""
  else "\nimport (\n" ++ String.join (imports.map fun p => "\t\"" ++ p ++ "\"\n") ++ ")\n"

/-- The file as text; an empty line goes before each declaration. -/
def text (write : α → String) (f : File α) : String :=
  "// Code generated by swag. DO NOT EDIT.\n\npackage " ++ f.package ++ "\n" ++
    importText f.imports ++ String.join (f.declarations.values.map fun d => "\n" ++ write d ++ "\n")

end File

/-- What is told of a declaration. -/
def declared (name : String) : LogLine := ⟨.debug, "declared " ++ name⟩

end ApiContract.GoClient
