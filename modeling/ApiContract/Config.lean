import ApiContract.GoClient.Client
import ApiContract.Source.YamlText

namespace ApiContract

open Source

structure Config where
  /-- The document to read. -/
  input : String := "swagger.json"
  /-- The rules of extraction. -/
  rules : Option String := none
  /-- The file to write. -/
  output : Option String := none
  client : GoClient.Options := {}
deriving Repr, DecidableEq

namespace GoClient.Options

def reader : RecordReader Options where
  name := "ClientConfig"
  known := ["package", "base_url"]
  required := []
  start := {}
  keep := none
  set o name v :=
    match name with
    | "package" => do return { o with package := ← Source.text .yaml v }
    | "base_url" => do return { o with baseUrl := ← Source.optional .yaml (Source.text .yaml) v }
    | _ => .ok o

end GoClient.Options

namespace Config

def fileName : String := ".swag.yaml"

def reader : RecordReader Config where
  name := "SwagConfig"
  known := ["input", "rules", "output", "client"]
  required := []
  start := {}
  keep := none
  set c name v :=
    match name with
    | "input" => do return { c with input := ← Source.text .yaml v }
    | "rules" => do return { c with rules := ← Source.optional .yaml (Source.text .yaml) v }
    | "output" => do return { c with output := ← Source.optional .yaml (Source.text .yaml) v }
    | "client" => do return { c with client := ← GoClient.Options.reader.read .yaml v }
    | _ => .ok c

def ofText (text : String) : Except DecodeFault Config := readYaml (reader.read .yaml) text

/-- The file that a new project starts with. -/
def initialText : String :=
  "# swag configuration\n" ++
  "input: swagger.json\n" ++
  "# rules: extractions.json   # used by `swag extract`\n" ++
  "# output: client.go         # defaults to standard output\n" ++
  "\n" ++
  "client:\n" ++
  "  package: client\n" ++
  "  # base_url: https://api.example.com/v1\n"

end Config

end ApiContract
