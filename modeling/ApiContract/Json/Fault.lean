import ApiContract.Json.Text
import ApiContract.Text.Escape

namespace ApiContract

inductive Found where
  | null
  | bool (b : Bool)
  | number (n : Number)
  | string (s : String)
  | list
  | record
  /-- The null of YAML. -/
  | nothing
  /-- A double of YAML. -/
  | double (x : Double)
  | other (name : String)
deriving Repr, DecidableEq

namespace Found

def name : Found → String
  | null => "null"
  | bool b => "boolean `" ++ (if b then "true" else "false") ++ "`"
  | number (.integer n) => "integer `" ++ toString n ++ "`"
  | number (.double x) => "floating point `" ++ String.ofList x.text ++ "`"
  | string s => "string " ++ Text.quoted s
  | list => "sequence"
  | record => "map"
  | nothing => "unit value"
  | double x => "floating point `" ++ String.ofList x.positionalText ++ "`"
  | other name => name

end Found

namespace Json

inductive Fault where
  | valueExpected
  | wordExpected
  | colonExpected
  | itemEndExpected
  | memberEndExpected
  | trailingComma
  | trailingCharacters
  /-- A member's name is missing; `instead` is the value that stands in its place, if any. -/
  | nameExpected (instead : Option Found)
  | invalidNumber
  | invalidEscape
  | endInValue
  | endInList
  | endInRecord
  | endInString
  | controlCharacter
  | loneSurrogate
  | unfinishedSurrogate
  | numberOutOfRange
  | tooDeep
deriving Repr, DecidableEq

def Fault.message : Fault → String
  | valueExpected => "expected value"
  | wordExpected => "expected ident"
  | colonExpected => "expected `:`"
  | itemEndExpected => "expected `,` or `]`"
  | memberEndExpected => "expected `,` or `\x7d`"
  | trailingComma => "trailing comma"
  | trailingCharacters => "trailing characters"
  | nameExpected _ => "key must be a string"
  | invalidNumber => "invalid number"
  | invalidEscape => "invalid escape"
  | endInValue => "EOF while parsing a value"
  | endInList => "EOF while parsing a list"
  | endInRecord => "EOF while parsing an object"
  | endInString => "EOF while parsing a string"
  | controlCharacter => "control character (\\u0000-\\u001F) found while parsing a string"
  | loneSurrogate => "lone leading surrogate in hex escape"
  | unfinishedSurrogate => "unexpected end of hex escape"
  | numberOutOfRange => "number out of range"
  | tooDeep => "recursion limit exceeded"

end Json

end ApiContract
