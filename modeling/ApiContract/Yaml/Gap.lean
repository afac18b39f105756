import ApiContract.Yaml.Cursor

namespace ApiContract.Yaml

/-- Blanks on one line, or a first line break and those after it, both with the last first. Blanks
beside a line break do not count. -/
inductive Gap where
  | blanks (text : List Char)
  | breaks (first more : List Char)
deriving Repr, DecidableEq

namespace Gap

def none : Gap := blanks []

def addBlank (x : Char) : Gap → Gap
  | blanks text => blanks (x :: text)
  | breaks first more => breaks first more

def addBreak (b : List Char) : Gap → Gap
  | blanks _ => breaks b []
  | breaks first more => breaks first (b.reverse ++ more)

def hasBreak : Gap → Bool
  | blanks _ => false
  | breaks _ _ => true

/-- A single newline is read as a blank, and of several the first is dropped. -/
def text : Gap → List Char
  | blanks text => text.reverse
  | breaks ['\n'] [] => [' ']
  | breaks ['\n'] more => more.reverse
  | breaks first more => first ++ more.reverse

end Gap

end ApiContract.Yaml
