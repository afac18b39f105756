namespace ApiContract.CommandLine

/-- What failed, and the causes, each of which is the cause of the one before. -/
structure Failure where
  message : String
  causes : List String := []
deriving Repr, DecidableEq

namespace Failure

/-- Every line of a text after the first is indented by `indent`. -/
def hanging (indent text : String) : String :=
  String.ofList (text.toList.flatMap fun c => if c = '\n' then '\n' :: indent.toList else [c])

def numbered (place : Nat) (cause : String) : String :=
  let number := toString place
  String.ofList (List.replicate (5 - number.length) ' ') ++ number ++ ": " ++
    hanging "       " cause

def numberedFrom : Nat → List String → String
  | _, [] => ""
  | place, cause :: rest => "\n" ++ numbered place cause ++ numberedFrom (place + 1) rest

/-- A single cause has no number. -/
def causesText : List String → String
  | [] => ""
  | [cause] => "\n\nCaused by:\n    " ++ hanging "    " cause
  | causes => "\n\nCaused by:" ++ numberedFrom 0 causes

def text (f : Failure) : String := "Error: " ++ f.message ++ causesText f.causes ++ "\n"

end Failure

end ApiContract.CommandLine
