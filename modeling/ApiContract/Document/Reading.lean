import ApiContract.Document.Basic
import ApiContract.Source.Basic

namespace ApiContract

open Source

def TypeName.read (access : Access) (v : Source) : Except DecodeFault TypeName :=
  Source.choice access (TypeName.all.map fun t => (t.label, t)) v

def TypeSet.read (v : Source) : Except DecodeFault TypeSet :=
  tryAside "TypeSet" v <|
    match TypeName.read .aside v with
    | .ok t => .ok (.single t)
    | .error _ => (Source.items .aside (TypeName.read .aside) v).map .several

namespace Schema

/-- The fields of a schema that hold no schema. -/
def reader (access : Access) : RecordReader Schema where
  name := "Schema"
  known := ["$ref", "type", "format", "description", "nullable", "properties", "required", "items"]
  required := []
  start := {}
  keep := some fun s name v => { s with extra := Members.insert s.extra name v }
  set s name v :=
    match name with
    | "$ref" => do return { s with reference := ← Source.optional access (Source.text access) v }
    | "type" => do return { s with types := ← Source.optional access TypeSet.read v }
    | "format" => do return { s with format := ← Source.optional access (Source.text access) v }
    | "description" =>
      do return { s with description := ← Source.optional access (Source.text access) v }
    | "nullable" => do return { s with nullable := ← Source.optional access (Source.flag access) v }
    | "required" => do return { s with required := ← Source.items access (Source.text access) v }
    | _ => .ok s

/-- Takes note that a field is given. -/
def give (d : Draft Schema) (field : String) : Except DecodeFault (Draft Schema) :=
  if field ∈ d.given then .error (.repeated field)
  else .ok { d with given := field :: d.given }

mutual

def read (access : Access) : Source → Except DecodeFault Schema
  | .record members fault => do
    let d ← readMembers access members ⟨{}, []⟩
    match fault with
    | some fault => throw (.malformed fault)
    | none => return d.value
  | .tagged _ v => read access v
  | v => if v.isEmpty access then .ok {} else v.mistyped "struct Schema"

def readMembers (access : Access) :
    List (MemberName × Source) → Draft Schema → Except DecodeFault (Draft Schema)
  | [], d => .ok d
  | (k, v) :: rest, d => do
    let name ← memberText access k
    match name with
    | "properties" =>
      let d ← give d name
      let properties ← inMember access name (readProperties access v)
      readMembers access rest { d with value := { d.value with properties } }
    | "items" =>
      let d ← give d name
      let items ← inMember access name (readItems access v)
      readMembers access rest { d with value := { d.value with items } }
    | name => readMembers access rest (← (reader access).readField access d name v)

def readProperties (access : Access) : Source → Except DecodeFault (Members Schema)
  | .record members fault => do
    let done ← readPropertyList access members []
    match fault with
    | some fault => throw (.malformed fault)
    | none => return done
  | .tagged _ v => readProperties access v
  | v => if v.isEmpty access then .ok [] else v.mistyped "a map"

def readPropertyList (access : Access) :
    List (MemberName × Source) → Members Schema → Except DecodeFault (Members Schema)
  | [], done => .ok done
  | (k, v) :: rest, done => do
    let name ← memberText access k
    let s ← inMember access name (read access v)
    readPropertyList access rest (Members.insert done name s)

/-- A list is one schema for each position, and a record one schema for all items. -/
def readItems (access : Access) : Source → Except DecodeFault (Option (Items Schema))
  | .list vs fault =>
    tryAside "Items" (.list vs fault) ((readList vs).map fun ss => some (.tuple ss))
  | .record members fault =>
    tryAside "Items" (.record members fault)
      ((readMembers .aside members ⟨{}, []⟩).map fun d => some (.single d.value))
  | v => do
    if ← v.isNull access then return none
    tryAside "Items" v (.error (.noVariant "Items"))

def readList : List Source → Except DecodeFault (List Schema)
  | [] => .ok []
  | v :: rest => do return (← read .aside v) :: (← readList rest)

end

end Schema

def Location.read (access : Access) (v : Source) : Except DecodeFault Location :=
  Source.choice access (Location.all.map fun l => (l.label, l)) v

namespace Parameter

def reader (access : Access) : RecordReader Parameter where
  name := "Parameter"
  known := ["name", "in", "description", "required", "type", "format", "schema"]
  required := ["name", "in"]
  start := { name := "", location := .path }
  keep := some fun p name v => { p with extra := Members.insert p.extra name v }
  set p name v :=
    match name with
    | "name" => do return { p with name := ← Source.text access v }
    | "in" => do return { p with location := ← Location.read access v }
    | "description" =>
      do return { p with description := ← Source.optional access (Source.text access) v }
    | "required" => do return { p with required := ← Source.flag access v }
    | "type" => do return { p with type := ← Source.optional access (TypeName.read access) v }
    | "format" => do return { p with format := ← Source.optional access (Source.text access) v }
    | "schema" => do return { p with schema := ← Source.optional access (Schema.read access) v }
    | _ => .ok p

def read (access : Access) (v : Source) : Except DecodeFault Parameter :=
  (reader access).read access v

end Parameter

namespace ParameterEntry

/-- A member is the path of a reference. It may be named by its place, as zero. -/
def namesReference (k : MemberName) : Except DecodeFault Bool :=
  match placeName? k with
  | some n => .ok (n = 0)
  | none => do return (← memberText .aside k) = "$ref"

/-- The path of a reference; whatever stands beside it does not count. -/
def referencePath (v : Source) : Except DecodeFault String :=
  match v with
  | .record members _ => do
    let paths ← members.filterM fun (k, _) => namesReference k
    match paths with
    | [] => throw (.missing "$ref")
    | [(_, path)] => Source.text .aside path
    | _ => throw (.repeated "$ref")
  | v => v.mistyped "struct ParameterOrRef"

def read (v : Source) : Except DecodeFault ParameterEntry :=
  tryAside "ParameterOrRef" v <|
    match referencePath v with
    | .ok path => .ok (.reference path)
    | .error _ => (Parameter.read .aside v).map .inline

end ParameterEntry

namespace Response

def reader (access : Access) : RecordReader Response where
  name := "Response"
  known := ["description", "schema"]
  required := []
  start := {}
  keep := some fun r name v => { r with extra := Members.insert r.extra name v }
  set r name v :=
    match name with
    | "description" => do return { r with description := ← Source.text access v }
    | "schema" => do return { r with schema := ← Source.optional access (Schema.read access) v }
    | _ => .ok r

def read (access : Access) (v : Source) : Except DecodeFault Response :=
  (reader access).read access v

end Response

namespace Operation

def reader (access : Access) : RecordReader Operation where
  name := "Operation"
  known := ["operationId", "summary", "description", "tags", "parameters", "responses",
    "deprecated"]
  required := []
  start := {}
  keep := some fun op name v => { op with extra := Members.insert op.extra name v }
  set op name v :=
    match name with
    | "operationId" =>
      do return { op with identifier := ← Source.optional access (Source.text access) v }
    | "summary" => do return { op with summary := ← Source.optional access (Source.text access) v }
    | "description" =>
      do return { op with description := ← Source.optional access (Source.text access) v }
    | "tags" => do return { op with tags := ← Source.items access (Source.text access) v }
    | "parameters" =>
      do return { op with parameters := ← Source.items access ParameterEntry.read v }
    | "responses" => do return { op with responses := ← Source.map access (Response.read access) v }
    | "deprecated" =>
      do return { op with deprecated := ← Source.optional access (Source.flag access) v }
    | _ => .ok op

def read (access : Access) (v : Source) : Except DecodeFault Operation :=
  (reader access).read access v

end Operation

def Method.read (access : Access) (v : Source) : Except DecodeFault Method :=
  Source.choice access (Method.all.map fun m => (m.name, m)) v

namespace PathItem

def reader (access : Access) : RecordReader PathItem where
  name := "PathItem"
  known := "parameters" :: Method.all.map Method.key
  required := []
  start := {}
  keep := some fun item name v => { item with extra := Members.insert item.extra name v }
  set item name v :=
    match Method.all.find? (·.key = name) with
    | some m => do return item.setOperation m (← Source.optional access (Operation.read access) v)
    | none => do return { item with parameters := ← Source.items access ParameterEntry.read v }

def read (access : Access) (v : Source) : Except DecodeFault PathItem :=
  (reader access).read access v

end PathItem

namespace Info

def reader (access : Access) : RecordReader Info where
  name := "Info"
  known := ["title", "description", "version"]
  required := []
  start := {}
  keep := some fun i name v => { i with extra := Members.insert i.extra name v }
  set i name v :=
    match name with
    | "title" => do return { i with title := ← Source.text access v }
    | "description" =>
      do return { i with description := ← Source.optional access (Source.text access) v }
    | "version" => do return { i with version := ← Source.text access v }
    | _ => .ok i

def read (access : Access) (v : Source) : Except DecodeFault Info :=
  (reader access).read access v

end Info

namespace Document

def reader (access : Access) : RecordReader Document where
  name := "SwaggerSpec"
  known := ["swagger", "info", "host", "basePath", "paths", "definitions", "parameters"]
  required := ["swagger"]
  start := { swagger := "" }
  keep := some fun d name v => { d with extra := Members.insert d.extra name v }
  set d name v :=
    match name with
    | "swagger" => do return { d with swagger := ← Source.text access v }
    | "info" => do return { d with info := ← Source.optional access (Info.read access) v }
    | "host" => do return { d with host := ← Source.optional access (Source.text access) v }
    | "basePath" => do return { d with basePath := ← Source.optional access (Source.text access) v }
    | "paths" => do return { d with paths := ← Source.map access (PathItem.read access) v }
    | "definitions" =>
      do return { d with definitions := ← Source.map access (Schema.read access) v }
    | "parameters" =>
      do return { d with parameters := ← Source.map access (Parameter.read access) v }
    | _ => .ok d

def read (access : Access) (v : Source) : Except DecodeFault Document :=
  (reader access).read access v

end Document

end ApiContract
