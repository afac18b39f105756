import ApiContract.Naming
import ApiContract.Text.Escape
import ApiContract.Text.Lines

namespace ApiContract.GoClient

/-- The exported field of a property. A name that would begin with a digit, or be empty, begins
with `X`. -/
def fieldName (property : String) : String :=
  let name := Naming.camelCase property
  match name.toList with
  | [] => "X"
  | c :: _ => if c.isDigit then "X" ++ name else name

def keywords : List String :=
  ["break", "case", "chan", "const", "continue", "default", "defer", "else", "fallthrough",
    "for", "func", "go", "goto", "if", "import", "interface", "map", "package", "range",
    "return", "select", "struct", "switch", "type", "var"]

/-- Names that the body of a method declares. -/
def methodLocals : List String :=
  ["body", "buf", "cl", "ctx", "err", "errBody", "q", "r", "req", "res", "u"]

/-- Keywords and locals of the method get an underscore. -/
def spared (name : String) : String :=
  if name ∈ keywords ++ methodLocals then name ++ "_" else name

/-- The argument of a parameter. -/
def argumentName (parameter : String) : String :=
  spared (Text.lowerCamelCase parameter)

/-- How a character is written between the quotes. -/
def escaped (c : Char) : List Char :=
  match c with
  | '"' => ['\\', '"']
  | '\\' => ['\\', '\\']
  | '\n' => ['\\', 'n']
  | '\r' => ['\\', 'r']
  | '\t' => ['\\', 't']
  | c =>
    if c.toNat < 0x20 ∨ c.toNat = 0x7f then
      ['\\', 'x', Text.hexDigit (c.toNat / 16), Text.hexDigit (c.toNat % 16)]
    else [c]

/-- The interpreted string literal that denotes `s`. -/
def stringLiteral (s : String) : String :=
  String.ofList ('"' :: s.toList.flatMap escaped ++ ['"'])

/-- A line as a comment; an empty line keeps only the slashes. -/
def commentLine (line : List Char) : List Char :=
  if Text.trimEnd line = [] then ['/', '/'] else '/' :: '/' :: ' ' :: Text.trimEnd line

/-- Every line of `text` as a comment, without blanks at the end of the text or of a line. -/
def comment (text : String) : String :=
  String.ofList <| Text.joinWith ['\n'] <|
    (Text.lines (Text.trimEnd text.toList)).map commentLine

end ApiContract.GoClient
