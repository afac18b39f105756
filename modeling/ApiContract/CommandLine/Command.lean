namespace ApiContract.CommandLine

inductive SummaryFormat where
  | yaml
  | json
deriving Repr, DecidableEq

inductive Command where
  | version
  | generate (input output package baseUrl : Option String)
  | extract (input rules output : Option String)
  | validate (input : String)
  | inspect (input : String) (format : SummaryFormat)
  | init (force : Bool)
deriving Repr, DecidableEq

/-- An option and the letter it may be given as. A flag has no value, and the value of a path is not
empty. -/
structure Switch where
  name : String
  letter : Option Char := none
  isFlag : Bool := false
  isPath : Bool := false

namespace Switch

def input : Switch := { name := "input", letter := some 'i', isPath := true }

def output : Switch := { name := "output", letter := some 'o', isPath := true }

def rules : Switch := { name := "rules", letter := some 'r', isPath := true }

def package : Switch := { name := "package" }

def baseUrl : Switch := { name := "base-url" }

def format : Switch := { name := "format" }

def force : Switch := { name := "force", isFlag := true }

end Switch

/-- A switch that an argument names, and the value it brings with it, if any. -/
structure Mention where
  switch : Switch
  value : Option String

/-- Two dashes and a name, or one dash and a letter; a value may follow in the same argument. -/
def mention? (known : List Switch) (argument : String) : Option Mention :=
  match argument.toList with
  | '-' :: '-' :: rest =>
    let name := rest.takeWhile (· ≠ '=')
    let value := rest.drop (name.length + 1)
    (known.find? (·.name.toList = name)).map fun switch =>
      ⟨switch, if name.length < rest.length then some (String.ofList value) else none⟩
  | '-' :: letter :: rest =>
    (known.find? (·.letter = some letter)).map fun switch =>
      ⟨switch, match rest with
        | [] => none
        | '=' :: value => some (String.ofList value)
        | value => some (String.ofList value)⟩
  | _ => none

/-- An argument can be a value by itself. A dash alone can. -/
def isValue (argument : String) : Bool :=
  match argument.toList with
  | '-' :: _ :: _ => false
  | _ => true

/-- The switches that arguments give, with their values, if all of them are known. -/
def given? (known : List Switch) : List String → Option (List (Switch × String))
  | [] => some []
  | ["--"] => some []
  | argument :: rest => do
    let mentioned ← mention? known argument
    if mentioned.switch.isFlag then
      if mentioned.value.isSome then none
      else return (mentioned.switch, "") :: (← given? known rest)
    else match mentioned.value with
      | some value => return (mentioned.switch, value) :: (← given? known rest)
      | none =>
        match rest with
        | [] => none
        | value :: rest =>
          if isValue value then return (mentioned.switch, value) :: (← given? known rest)
          else none

/-- No switch is given twice, and no path is empty. -/
def isProper (given : List (Switch × String)) : Bool :=
  let names := given.map fun (s, _) => s.name
  names.eraseDups.length = names.length && given.all fun (s, value) => !s.isPath || value ≠ ""

def proper? (known : List Switch) (arguments : List String) : Option (List (Switch × String)) :=
  (given? known arguments).filter isProper

def valueOf (given : List (Switch × String)) (s : Switch) : Option String :=
  (given.find? fun p => p.1.name = s.name).map Prod.snd

def summaryFormat? : Option String → Option SummaryFormat
  | none | some "yaml" => some .yaml
  | some "json" => some .json
  | some _ => none

namespace Command

/-- The command that arguments give, if they give one. -/
def ofArguments? : List String → Option Command
  | "generate" :: rest => do
    let given ← proper? [.input, .output, .package, .baseUrl] rest
    return generate (valueOf given .input) (valueOf given .output) (valueOf given .package)
      (valueOf given .baseUrl)
  | "extract" :: rest => do
    let given ← proper? [.input, .rules, .output] rest
    return extract (valueOf given .input) (valueOf given .rules) (valueOf given .output)
  | "validate" :: rest => do
    let given ← proper? [.input] rest
    return validate (← valueOf given .input)
  | "inspect" :: rest => do
    let given ← proper? [.input, .format] rest
    return inspect (← valueOf given .input) (← summaryFormat? (valueOf given .format))
  | "init" :: rest => do
    let given ← proper? [.force] rest
    return init (valueOf given .force).isSome
  | argument :: _ =>
    if argument = "--version" ∨ argument.startsWith "-V" then some version else none
  | [] => none

end Command

end ApiContract.CommandLine
