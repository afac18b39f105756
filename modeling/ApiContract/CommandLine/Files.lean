import ApiContract.CommandLine.Path

namespace ApiContract.CommandLine

/-- Why the system refuses a path. -/
inductive PathFault where
  | missing
  | taken
  | notDirectory
  | isDirectory
  | other (text : String)
deriving Repr, DecidableEq

def PathFault.message : PathFault → String
  | missing => "No such file or directory (os error 2)"
  | taken => "File exists (os error 17)"
  | notDirectory => "Not a directory (os error 20)"
  | isDirectory => "Is a directory (os error 21)"
  | other text => text

/-- What a command may do with files. -/
class Files (m : Type → Type) where
  isPresent (path : String) : m Bool
  isDirectory (path : String) : m Bool
  read (path : String) : m (Except PathFault String)
  write (path content : String) : m (Except PathFault Unit)
  makeDirectory (path : String) : m (Except PathFault Unit)

namespace Files

variable {m : Type → Type} [Monad m] [Files m]

/-- A directory that is there already is as good as made. -/
def orPresent (path : String) (fault : PathFault) : m (Except PathFault Unit) := do
  if fault = .taken then
    if ← isDirectory path then return .ok ()
  return .error fault

/-- Makes directories in order. -/
def makeEach : List String → m (Except PathFault Unit)
  | [] => return .ok ()
  | path :: rest => do
    match ← makeDirectory path with
    | .ok () => makeEach rest
    | .error fault =>
      match ← orPresent path fault with
      | .ok () => makeEach rest
      | .error fault => return .error fault

/-- Goes outwards to the first directory that can be made or is there, then back inwards. -/
def makeFrom (inner : List String) : List String → m (Except PathFault Unit)
  | [] => makeEach inner
  | path :: outer => do
    match ← makeDirectory path with
    | .ok () => makeEach inner
    | .error .missing => makeFrom (path :: inner) outer
    | .error fault =>
      match ← orPresent path fault with
      | .ok () => makeEach inner
      | .error fault => return .error fault

/-- Makes a directory and those that hold it, as far as they are missing. -/
def makeDirectories (path : String) : m (Except PathFault Unit) :=
  makeFrom [] (enclosing path.length path)

end Files

/-- The names that lead to a file or directory from the top. -/
abbrev Place := List String

inductive Entry where
  | file (content : String)
  | directory
deriving Repr, DecidableEq

/-- Files by place, and the directories that were made. A directory is there if something is in
it. -/
structure Tree where
  files : List (Place × String) := []
  made : List Place := []
deriving Repr, DecidableEq

namespace Tree

def namesOf (path : String) : List String :=
  (Text.pieces (· = '/') path.toList).map String.ofList

/-- A tree of files with given paths. -/
def ofFiles (files : List (String × String)) : Tree where
  files := files.map fun (path, content) =>
    ((namesOf path).filter fun name => name ≠ "" ∧ name ≠ ".", content)

def isWithin (place inner : Place) : Bool :=
  inner.take place.length = place && place.length < inner.length

def entry? (t : Tree) (place : Place) : Option Entry :=
  match t.files.lookup place with
  | some content => some (.file content)
  | none =>
    if place = [] ∨ t.made.contains place ∨ t.made.any (isWithin place) ∨
        t.files.any fun f => isWithin place f.1 then some .directory
    else none

/-- Goes along names, each of which needs a directory to look in, to a place where something may be.
There is nothing above the top. -/
def walk (t : Tree) (place : Place) : List String → Except PathFault Place
  | [] => .ok place
  | name :: rest =>
    match t.entry? place with
    | none => .error .missing
    | some (.file _) => .error .notDirectory
    | some .directory =>
      if name = "" ∨ name = "." then walk t place rest
      else if name = ".." then if place = [] then .error .missing else walk t place.dropLast rest
      else walk t (place ++ [name]) rest

/-- The place that a path leads to; a slash at its end asks for a directory. -/
def locate (t : Tree) (path : String) : Except PathFault (Place × Bool) :=
  if path = "" ∨ path.startsWith "/" then .error .missing
  else
    let names := namesOf path
    let slash := names.getLast? = some ""
    (t.walk [] (if slash then names.dropLast else names)).map fun place => (place, slash)

def isDirectory (t : Tree) (path : String) : Bool :=
  match t.locate path with
  | .ok (place, _) => t.entry? place = some .directory
  | .error _ => false

def isPresent (t : Tree) (path : String) : Bool :=
  match t.locate path with
  | .ok (place, _) => (t.entry? place).isSome
  | .error _ => false

def read (t : Tree) (path : String) : Except PathFault String := do
  let (place, slash) ← t.locate path
  match t.entry? place with
  | none => throw .missing
  | some .directory => throw .isDirectory
  | some (.file content) => if slash then throw .notDirectory else return content

/-- A file that is there gets new content. -/
def put (t : Tree) (place : Place) (content : String) : Tree :=
  if t.files.any (·.1 = place) then
    { t with files := t.files.map fun f => if f.1 = place then (place, content) else f }
  else { t with files := t.files ++ [(place, content)] }

def write (t : Tree) (path content : String) : Except PathFault Tree := do
  let (place, slash) ← t.locate path
  match t.entry? place with
  | some .directory => throw .isDirectory
  | some (.file _) => if slash then throw .notDirectory else return t.put place content
  | none => if slash then throw .isDirectory else return t.put place content

def makeDirectory (t : Tree) (path : String) : Except PathFault Tree := do
  let (place, _) ← t.locate path
  match t.entry? place with
  | some _ => throw .taken
  | none => return { t with made := t.made ++ [place] }

/-- The files that are new or have a new content, by path. -/
def changes (before after : Tree) : List (String × String) :=
  (after.files.filter fun f => before.files.lookup f.1 ≠ some f.2).map fun (place, content) =>
    ("/".intercalate place, content)

/-- Changes the tree if the step succeeds. -/
def update (step : Tree → Except PathFault Tree) : StateM Tree (Except PathFault Unit) := do
  match step (← get) with
  | .ok t =>
    set t
    return .ok ()
  | .error fault => return .error fault

instance : Files (StateM Tree) where
  isPresent path := do return (← get).isPresent path
  isDirectory path := do return (← get).isDirectory path
  read path := do return (← get).read path
  write path content := update fun t => t.write path content
  makeDirectory path := update fun t => t.makeDirectory path

end Tree

end ApiContract.CommandLine
