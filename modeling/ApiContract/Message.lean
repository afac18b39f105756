import ApiContract.Text.Escape

namespace ApiContract

inductive ResolveFault where
  | noSuchProperty (name : String)
  /-- An array without a single items schema; `name` is the last step before it. -/
  | malformedArray (name : String)
  | unknownDefinition (name : String)
  | unknownParameter (name : String)
  | invalidReference (path : String)
deriving Repr, DecidableEq

def ResolveFault.message : ResolveFault → String
  | noSuchProperty name => "no such property: " ++ name
  | malformedArray name =>
    "malformed array under " ++ Text.quoted name ++ ": items must be a single schema"
  | unknownDefinition name => "unknown definition: " ++ name
  | unknownParameter name => "unknown parameter: " ++ name
  | invalidReference path => "invalid reference format: " ++ path

inductive Level where
  | debug
  | info
  | warn
deriving Repr, DecidableEq

def Level.label : Level → String
  | debug => "DEBUG"
  | info => "INFO"
  | warn => "WARN"

structure LogLine where
  level : Level
  text : String
deriving Repr, DecidableEq

def LogLine.render (l : LogLine) : String := l.level.label ++ " " ++ l.text

end ApiContract
