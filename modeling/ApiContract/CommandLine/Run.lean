import ApiContract.CommandLine.Command
import ApiContract.CommandLine.Failure
import ApiContract.CommandLine.Files
import ApiContract.Config
import ApiContract.Document.Load
import ApiContract.Document.Summary
import ApiContract.Extraction.Apply
import ApiContract.Yaml.Writing

namespace ApiContract.CommandLine

/-- What was printed: the answer, and what is told beside it. -/
structure Printed where
  answer : String := ""
  messages : String := ""
deriving Repr, DecidableEq

structure Report where
  code : Nat
  printed : Printed
deriving Repr, DecidableEq

/-- Steps that may fail, print, and use files. -/
abbrev Session (m : Type → Type) := ExceptT Failure (StateT Printed m)

namespace Session

variable {m : Type → Type} [Monad m]

def print (text : String) : Session m Unit :=
  modify fun p => { p with answer := p.answer ++ text }

def say (line : String) : Session m Unit :=
  modify fun p => { p with messages := p.messages ++ line ++ "\n" }

def fail {α : Type} (message : String) (causes : List String) : Session m α :=
  throw ⟨message, causes⟩

/-- A fault of the system is the cause of a failure. -/
def orFail {α : Type} (message : String) (step : m (Except PathFault α)) : Session m α := do
  match ← (step : Session m (Except PathFault α)) with
  | .ok a => return a
  | .error fault => fail message [fault.message]

variable [Files m]

def isPresent (path : String) : Session m Bool := (Files.isPresent path : m Bool)

def read (path : String) : Session m String :=
  orFail ("failed to read " ++ path) (Files.read path)

/-- Writes to a file, or prints where there is none. -/
def deliver (output : Option String) (content : String) : Session m Unit := do
  match output with
  | none => print content
  | some path =>
    match (parent? path).filter (· ≠ "") with
    | some outer =>
      orFail ("failed to create directory " ++ outer) (Files.makeDirectories outer)
    | none => pure ()
    orFail ("failed to write " ++ path) (Files.write path content)
    say ("  wrote " ++ path)

/-- The settings of the project in this directory, or the ones that go without saying. -/
def config : Session m Config := do
  let path := Config.fileName
  if ← isPresent path then
    match ← (Files.read path : m (Except PathFault String)) with
    | .error fault => fail ("failed to read config " ++ path ++ ": " ++ fault.message) []
    | .ok text =>
      match Config.ofText text with
      | .error fault => fail ("failed to parse config " ++ path ++ ": " ++ fault.message) []
      | .ok config => return config
  else return {}

/-- The ending of the name tells YAML from JSON. -/
def formatOf (path : String) : Format :=
  if extension? path = some "yaml" ∨ extension? path = some "yml" then .yaml else .json

def loadCauses (fault : LoadFault) : List String :=
  match fault with
  | .undecodable cause => [fault.message, cause.message]
  | .unsupportedVersion _ => [fault.message]

def load (path : String) : Session m Document := do
  match Document.ofText (formatOf path) (← read path) with
  | .ok d => return d
  | .error fault => fail ("failed to decode " ++ path) (loadCauses fault)

def loadRules (path : String) : Session m Extraction.RuleSet := do
  match Extraction.RuleSet.ofText (← read path) with
  | .ok rules => return rules
  | .error fault => fail ("failed to decode " ++ path) (loadCauses (.undecodable fault))

def generate (input output package baseUrl : Option String) : Session m Unit := do
  let config ← config
  let options : GoClient.Options :=
    { package := package.getD config.client.package, baseUrl := baseUrl.or config.client.baseUrl }
  let input := input.getD config.input
  let d ← load input
  match (GoClient.generate d options).1 with
  | .ok file => deliver (output.or config.output) (GoClient.fileText file)
  | .error fault => fail ("failed to generate a client for " ++ input) fault.messages

def extractionCauses (fault : Extraction.Fault) : List String :=
  match fault with
  | .property _ cause => [fault.message, cause.message]
  | _ => [fault.message]

def extract (input rules output : Option String) : Session m Unit := do
  let config ← config
  let input := input.getD config.input
  match rules.or config.rules with
  | none =>
    fail ("no extraction rules given. Pass --rules or set `rules` in " ++ Config.fileName ++ ".") []
  | some rules =>
    let d ← load input
    let rules ← loadRules rules
    let done := Extraction.extract d rules.rules
    match done.result with
    | .ok () => deliver output done.document.text
    | .error fault => fail ("failed to extract schemas from " ++ input) (extractionCauses fault)

/-- Tells what is in a document, and whether a client can be generated from it. -/
def validate (input : String) : Session m Unit := do
  let d ← load input
  say ("Valid Swagger " ++ d.swagger ++ " document: " ++ (d.info.map Info.title).getD "")
  say ("  Version: " ++ (d.info.map Info.version).getD "")
  say ("  Paths: " ++ toString d.paths.length)
  say ("  Definitions: " ++ toString d.definitions.length)
  say ("  Operations: " ++ toString d.operations.length)
  match (GoClient.generate d {}).1 with
  | .ok file =>
    say ("  Generated lines: " ++ toString (Text.lines (GoClient.fileText file).toList).length)
    say "Validation successful."
  | .error fault =>
    match fault.messages with
    | message :: causes => fail message causes
    | [] => fail "" []

def inspect (input : String) (format : SummaryFormat) : Session m Unit := do
  let d ← load input
  match format with
  | .yaml => print (Yaml.text d.summary)
  | .json => print (d.summary.pretty ++ "\n")

/-- Starts a project. -/
def init (force : Bool) : Session m Unit := do
  let path := Config.fileName
  if !force && (← isPresent path) then
    fail (path ++ " already exists. Use --force to overwrite.") []
  orFail ("failed to write " ++ path) (Files.write path Config.initialText)
  say ("Created " ++ path)

def versionText : String := "swag 0.3.0\n"

def perform : Command → Session m Unit
  | .version => print versionText
  | .generate input output package baseUrl => generate input output package baseUrl
  | .extract input rules output => extract input rules output
  | .validate input => validate input
  | .inspect input format => inspect input format
  | .init force => init force

end Session

/-- The code for arguments that give no command. -/
def usageCode : Nat := 2

def usage : String :=
  "Usage: swag generate [-i FILE] [-o FILE] [--package NAME] [--base-url ADDRESS]\n" ++
  "       swag extract [-i FILE] [-r FILE] [-o FILE]\n" ++
  "       swag validate -i FILE\n" ++
  "       swag inspect -i FILE [--format yaml|json]\n" ++
  "       swag init [--force]\n" ++
  "       swag --version\n"

/-- Runs the command that arguments give. -/
def run {m : Type → Type} [Monad m] [Files m] (arguments : List String) : m Report := do
  match Command.ofArguments? arguments with
  | none => return ⟨usageCode, { messages := usage }⟩
  | some command =>
    let (result, printed) ← (Session.perform command : Session m Unit).run.run {}
    match result with
    | .ok () => return ⟨0, printed⟩
    | .error failure =>
      return ⟨1, { printed with messages := printed.messages ++ failure.text }⟩

end ApiContract.CommandLine
