import ApiContract.Text.Lines

namespace ApiContract.CommandLine

/-- A part of a path that leads nowhere. -/
def isIdle (part : List Char) : Bool := part = [] || part = ['.']

/-- Drops idle parts at the end, but not the first part. -/
def trimParts : List (List Char) → List (List Char)
  | [] => []
  | first :: rest => first :: (rest.reverse.dropWhile isIdle).reverse

/-- The parts between the slashes; a first part that is empty stands for the root. -/
def pathParts (path : String) : List (List Char) := trimParts (Text.pieces (· = '/') path.toList)

def joinParts : List (List Char) → String
  | [[]] => "/"
  | parts => String.ofList (Text.joinWith ['/'] parts)

/-- The path without its last part; nothing holds the root and the empty path. -/
def parent? (path : String) : Option String :=
  match pathParts path with
  | [] | [[]] => none
  | [_] => some ""
  | parts => some (joinParts (trimParts parts.dropLast))

/-- What follows the last point of the name, if something stands before that point. -/
def extension? (path : String) : Option String :=
  match (pathParts path).getLast? with
  | none => none
  | some name =>
    let ending := (name.reverse.takeWhile (· ≠ '.')).reverse
    let before := name.take (name.length - ending.length - 1)
    if name = ['.', '.'] ∨ before = [] then none else some (String.ofList ending)

/-- At most `n` of the paths that hold a path, from itself outwards. -/
def enclosing : Nat → String → List String
  | 0, _ => []
  | n + 1, path =>
    match parent? path with
    | none => []
    | some outer => path :: enclosing n outer

end ApiContract.CommandLine
