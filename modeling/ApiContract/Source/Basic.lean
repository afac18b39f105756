import ApiContract.Json.Fault
import ApiContract.Yaml.Fault
import ApiContract.Yaml.Scalar

namespace ApiContract

/-- Why a text cannot be read to its end. -/
inductive TextFault where
  | json (fault : Json.Fault)
  | yaml (fault : Yaml.Fault)
deriving Repr, DecidableEq

def TextFault.message : TextFault → String
  | json fault => fault.message
  | yaml fault => fault.message

/-- The name of a member. In YAML it may be a scalar with a meaning, or no scalar at all. -/
inductive MemberName where
  | text (s : String)
  | scalar (s : Yaml.Scalar)
  | compound
deriving Repr, DecidableEq

/-- What stands in a text, as far as the text can be read. A list or a record holds what was read
before its own fault, if it has one. -/
inductive Source where
  | null
  | bool (b : Bool)
  | number (n : Number)
  | string (s : String)
  /-- A scalar of YAML, whose meaning hangs on what is expected. -/
  | scalar (s : Yaml.Scalar)
  | list (items : List Source) (fault : Option TextFault)
  | record (members : List (MemberName × Source)) (fault : Option TextFault)
  /-- A list or a record with a tag of the user's own. -/
  | tagged (tag : String) (v : Source)
  /-- No value at all, or a string that is at fault. -/
  | broken (fault : TextFault)
  /-- A number or one of the words of JSON that is at fault. -/
  | misspelt (fault : TextFault)
deriving Repr, Inhabited

/-- Why a value is not what a document has in its place. -/
inductive DecodeFault where
  | malformed (fault : TextFault)
  | mistyped (found : Found) (expected : String)
  | misvalued (found : Found) (expected : String)
  | missing (field : String)
  | repeated (field : String)
  | unknownVariant (name : String) (known : List String)
  | noVariant (choice : String)
  | wrongLength (n : Nat) (expected : String)
  /-- A tag of the user's own where nothing can make sense of it. -/
  | foreignTag
  /-- A fault at a place within a YAML text. -/
  | placed (place : List String) (fault : DecodeFault)
deriving Repr, DecidableEq

namespace DecodeFault

def backquoted (s : String) : String := "`" ++ s ++ "`"

/-- Steps to a place, with a point before each name but the first. -/
def placeText (place : List String) : String :=
  let text := String.join place
  if text.startsWith "." then (text.drop 1).toString else text

def message : DecodeFault → String
  | malformed fault => fault.message
  | mistyped found expected => "invalid type: " ++ found.name ++ ", expected " ++ expected
  | misvalued found expected => "invalid value: " ++ found.name ++ ", expected " ++ expected
  | missing field => "missing field " ++ backquoted field
  | repeated field => "duplicate field " ++ backquoted field
  | unknownVariant name known =>
    "unknown variant " ++ backquoted name ++ ", expected one of " ++
      ", ".intercalate (known.map backquoted)
  | noVariant choice => "data did not match any variant of untagged enum " ++ choice
  | wrongLength n expected => "invalid length " ++ toString n ++ ", expected " ++ expected
  | foreignTag => "untagged and internally tagged enums do not support enum input"
  | placed [] fault => fault.message
  | placed place fault => placeText place ++ ": " ++ fault.message

/-- The fault as it is told by what holds the place with it. That a value is none of several kinds
of thing is told of what holds the value. -/
def within (step : String) : DecodeFault → DecodeFault
  | malformed fault => malformed fault
  | placed place fault => placed (step :: place) fault
  | noVariant choice => placed [] (noVariant choice)
  | fault => placed [step] fault

end DecodeFault

/-- How a value is reached: in JSON, in YAML, or after it has been set aside because what it stands
for is chosen by trial. Aside, a scalar has the meaning it has by itself. -/
inductive Access where
  | json
  | yaml
  | aside
deriving Repr, DecidableEq

namespace Source

/-- Tells where a fault lies, as YAML does. -/
def within {α : Type} (access : Access) (step : String) (r : Except DecodeFault α) :
    Except DecodeFault α :=
  match access, r with
  | .yaml, .error fault => .error (fault.within step)
  | _, r => r

def inMember {α : Type} (access : Access) (name : String) (r : Except DecodeFault α) :
    Except DecodeFault α :=
  within access ("." ++ name) r

def inItem {α : Type} (access : Access) (place : Nat) (r : Except DecodeFault α) :
    Except DecodeFault α :=
  within access ("[" ++ toString place ++ "]") r

def foundMeaning (text : String) : Yaml.Meaning → Found
  | .null => .nothing
  | .bool b => .bool b
  | .number (.integer n) => .number (.integer n)
  | .number (.double x) => .double x
  | .notFinite => .other ("floating point " ++ DecodeFault.backquoted text)
  | .wide => .other ("integer " ++ DecodeFault.backquoted text)
  | .text | .misnamed _ | .foreign _ => .string text

def foundScalar (s : Yaml.Scalar) : Found := foundMeaning s.text s.meaning

def found : Source → Found
  | null => .null
  | bool b => .bool b
  | number n => .number n
  | string s => .string s
  | scalar s => foundScalar s
  | list _ _ => .list
  | record _ _ => .record
  | tagged _ v => v.found
  | broken _ | misspelt _ => .null

def mistyped {α : Type} (v : Source) (expected : String) : Except DecodeFault α :=
  match v with
  | broken fault | misspelt fault => .error (.malformed fault)
  | v => .error (.mistyped v.found expected)

/-- The value as it is where a tag of the user's own does not count. -/
def untagged : Source → Source
  | tagged _ v => v
  | v => v

/-- A scalar stands for nothing. A tag that says so must be right. -/
def scalarIsNull (access : Access) (s : Yaml.Scalar) : Except DecodeFault Bool :=
  if access ≠ .yaml then .ok (s.meaning = .null)
  else if s.style ≠ .plain then .ok false
  else match s.tag with
    | none => .ok (s.meaning = .null)
    | some tag =>
      if tag ≠ Yaml.nullTag then .ok false
      else if s.meaning = .null then .ok true
      else .error (.misvalued (.string s.text) "null")

def isNull (access : Access) : Source → Except DecodeFault Bool
  | null => .ok true
  | scalar s => scalarIsNull access s
  | _ => .ok false

/-- An empty place, which YAML takes for an empty list or record. -/
def isEmpty (access : Access) : Source → Bool
  | scalar s => access = .yaml && s.isEmpty
  | _ => false

/-- The text of a scalar, which aside must have no other meaning. -/
def scalarText? (access : Access) (s : Yaml.Scalar) : Option String :=
  if access = .aside ∧ s.meaning ≠ .text then none else some s.text

def text (access : Access) (v : Source) : Except DecodeFault String :=
  match v with
  | string s => .ok s
  | scalar s =>
    match scalarText? access s with
    | some s => .ok s
    | none => v.mistyped "a string"
  | v => v.mistyped "a string"

/-- Where a flag is expected, an unquoted word may be one in spite of its tag. -/
def scalarFlag? (access : Access) (s : Yaml.Scalar) : Option Bool :=
  if access = .yaml then
    if s.style = .plain ∨ s.style = .literal ∧ s.tag = some Yaml.boolTag then
      Yaml.bool? s.text.toList
    else none
  else match s.meaning with
    | .bool b => some b
    | _ => none

def flag (access : Access) (v : Source) : Except DecodeFault Bool :=
  match v with
  | bool b => .ok b
  | scalar s =>
    match scalarFlag? access s with
    | some b => .ok b
    | none => v.mistyped "a boolean"
  | v => v.mistyped "a boolean"

/-- A number of sixteen bits. -/
def code (v : Source) : Except DecodeFault Nat :=
  match v with
  | number (.integer n) =>
    if 0 ≤ n ∧ n < 65536 then .ok n.toNat
    else .error (.misvalued (.number (.integer n)) "u16")
  | v => v.mistyped "u16"

/-- Nothing for null. -/
def optional {α : Type} (access : Access) (read : Source → Except DecodeFault α) (v : Source) :
    Except DecodeFault (Option α) := do
  if ← v.isNull access then return none
  return some (← read v)

/-- Reads values in order, the first at a place. -/
def readItems {α : Type} (access : Access) (read : Source → Except DecodeFault α) :
    Nat → List Source → Except DecodeFault (List α)
  | _, [] => .ok []
  | place, v :: rest => do
    let a ← inItem access place (read v)
    return a :: (← readItems access read (place + 1) rest)

/-- The items of a list, read in order, before its own fault. -/
def items {α : Type} (access : Access) (read : Source → Except DecodeFault α) (v : Source) :
    Except DecodeFault (List α) :=
  match v.untagged with
  | list items fault => do
    let read ← readItems access read 0 items
    match fault with
    | some fault => throw (.malformed fault)
    | none => return read
  | v => if v.isEmpty access then .ok [] else v.mistyped "a sequence"

/-- The name of a member where any text is allowed. -/
def memberText (access : Access) : MemberName → Except DecodeFault String
  | .text s => .ok s
  | .scalar s =>
    match scalarText? access s with
    | some s => .ok s
    | none => .error (.mistyped (foundScalar s) "a string")
  | .compound => .error (.mistyped .record "a string")

/-- Reads members in order into a map. -/
def readMembers {α : Type} (access : Access) (read : Source → Except DecodeFault α) :
    List (MemberName × Source) → Members α → Except DecodeFault (Members α)
  | [], done => .ok done
  | (k, v) :: rest, done => do
    let name ← memberText access k
    let value ← inMember access name (read v)
    readMembers access read rest (done.insert name value)

/-- A map whose values are all of one kind. -/
def map {α : Type} (access : Access) (read : Source → Except DecodeFault α) (v : Source) :
    Except DecodeFault (Members α) :=
  match v.untagged with
  | record members fault => do
    let done ← readMembers access read members []
    match fault with
    | some fault => throw (.malformed fault)
    | none => return done
  | v => if v.isEmpty access then .ok [] else v.mistyped "a map"

/-- Why a scalar cannot be set aside, if it cannot. -/
def scalarFault? (s : Yaml.Scalar) : Option DecodeFault :=
  match s.meaning with
  | .wide => some (.mistyped (.other ("integer " ++ DecodeFault.backquoted s.text)) "any value")
  | .misnamed expected => some (.misvalued (.string s.text) expected)
  | .foreign _ => some .foreignTag
  | _ => none

/-- A scalar as it is kept when nothing interprets it. -/
def keptScalar (s : Yaml.Scalar) : Except DecodeFault Json :=
  match scalarFault? s with
  | some fault => .error fault
  | none =>
    match s.meaning with
    | .null | .notFinite => .ok .null
    | .bool b => .ok (.bool b)
    | .number n => .ok (.number n)
    | _ => .ok (.string s.text)

mutual

/-- The JSON value that a value is kept as when nothing interprets it. -/
def kept : Source → Except DecodeFault Json
  | null => .ok .null
  | bool b => .ok (.bool b)
  | number n => .ok (.number n)
  | string s => .ok (.string s)
  | scalar s => keptScalar s
  | list items fault => do
    let items ← keptList items
    match fault with
    | some fault => throw (.malformed fault)
    | none => return .array items
  | record members fault => do
    let members ← keptMembers members []
    match fault with
    | some fault => throw (.malformed fault)
    | none => return .object members
  | tagged _ _ => .error .foreignTag
  | broken fault | misspelt fault => .error (.malformed fault)

def keptList : List Source → Except DecodeFault (List Json)
  | [] => .ok []
  | v :: rest => do return (← kept v) :: (← keptList rest)

def keptMembers : List (MemberName × Source) → Members Json → Except DecodeFault (Members Json)
  | [], done => .ok done
  | (k, v) :: rest, done => do
    let name ← memberText .aside k
    let value ← kept v
    keptMembers rest (done.insert name value)

end

/-- Why a name cannot be set aside, if it cannot. -/
def nameFault? : MemberName → Option DecodeFault
  | .scalar s => scalarFault? s
  | _ => none

mutual

/-- Why a value cannot be set aside, if it cannot: the first fault within it. -/
def fault? : Source → Option DecodeFault
  | scalar s => scalarFault? s
  | list items fault => (faultOfList? items).or (fault.map .malformed)
  | record members fault => (faultOfMembers? members).or (fault.map .malformed)
  | tagged _ _ => some .foreignTag
  | broken fault | misspelt fault => some (.malformed fault)
  | _ => none

def faultOfList? : List Source → Option DecodeFault
  | [] => none
  | v :: rest => (fault? v).or (faultOfList? rest)

def faultOfMembers? : List (MemberName × Source) → Option DecodeFault
  | [] => none
  | (k, v) :: rest => ((nameFault? k).or (fault? v)).or (faultOfMembers? rest)

end

mutual

/-- The first fault of the text within a value. -/
def textFault? : Source → Option TextFault
  | list items fault => (textFaultOfList? items).or fault
  | record members fault => (textFaultOfMembers? members).or fault
  | tagged _ v => textFault? v
  | broken fault | misspelt fault => some fault
  | _ => none

def textFaultOfList? : List Source → Option TextFault
  | [] => none
  | v :: rest => (textFault? v).or (textFaultOfList? rest)

def textFaultOfMembers? : List (MemberName × Source) → Option TextFault
  | [] => none
  | (_, v) :: rest => (textFault? v).or (textFaultOfMembers? rest)

end

/-- A value that is set aside must be whole before anything is tried on it; if no trial fits, that
is all that is told. -/
def tryAside {α : Type} (choice : String) (v : Source) (trial : Except DecodeFault α) :
    Except DecodeFault α :=
  match v.fault? with
  | some fault => .error fault
  | none =>
    match trial with
    | .ok a => .ok a
    | .error _ => .error (.noVariant choice)

def pick {α : Type} (choices : List (String × α)) (name : String) : Except DecodeFault α :=
  match choices.lookup name with
  | some a => .ok a
  | none => .error (.unknownVariant name (choices.map Prod.fst))

/-- One of several names where YAML stands: as a scalar, or as the tag of an empty place. -/
def choiceInYaml {α : Type} (choices : List (String × α)) (v : Source) : Except DecodeFault α :=
  match v with
  | scalar s =>
    match s.tag.bind Yaml.ownTag? with
    | none => pick choices s.text
    | some name => do
      let picked ← pick choices name
      if s.style = .plain ∧ (s.text = "" ∨ Yaml.isNullWord s.text.toList) then return picked
      throw (.misvalued (.string s.text) "null")
  | tagged name v => do
    let _ ← pick choices name
    v.mistyped "unit"
  | v => v.mistyped "a YAML tag starting with '!'"

/-- The place that a name gives as a whole number. -/
def placeName? : MemberName → Option Nat
  | .scalar s =>
    match s.meaning with
    | .number (.integer n) => if 0 ≤ n then some n.toNat else none
    | _ => none
  | _ => none

/-- The choice that a member names, by its name or by its place. -/
def pickMember {α : Type} (access : Access) (choices : List (String × α)) (k : MemberName) :
    Except DecodeFault α :=
  match (placeName? k).bind fun n => choices[n]? with
  | some (_, a) => .ok a
  | none => do pick choices (← memberText access k)

/-- One of several names. A name may also be the only member of a record, with null as its value. -/
def choice {α : Type} (access : Access) (choices : List (String × α)) (v : Source) :
    Except DecodeFault α :=
  if access = .yaml then choiceInYaml choices v
  else match v with
    | string s => pick choices s
    | scalar s =>
      match scalarText? access s with
      | some s => pick choices s
      | none => noName
    | record [] (some (.json (.nameExpected (some found)))) =>
      .error (.mistyped found "variant identifier")
    | record [] (some (.json (.nameExpected none))) => noName
    | record [] (some fault) => .error (.malformed fault)
    | record ((k, value) :: rest) fault => do
      let picked ← pickMember access choices k
      if ¬ (← value.isNull access) then value.mistyped "unit"
      match rest, fault with
      | [], none => return picked
      | [], some (.json .endInRecord) => throw (.malformed (.json .endInRecord))
      | _, _ => noName
    | broken fault => .error (.malformed fault)
    | _ => noName
where
  noName : Except DecodeFault α := .error (.malformed (.json .valueExpected))

/-- What a record's fields are read into: the value so far and the fields that were given. -/
structure Draft (α : Type) where
  value : α
  given : List String

/-- How a record is read: its name in messages, the fields it knows, how each of them is set, how
any other member is kept if it is, and the fields it must have. -/
structure RecordReader (α : Type) where
  name : String
  known : List String
  set : α → String → Source → Except DecodeFault α
  keep : Option (α → String → Json → α)
  required : List String
  start : α

namespace RecordReader

variable {α : Type}

def readField (r : RecordReader α) (access : Access) (d : Draft α) (name : String) (v : Source) :
    Except DecodeFault (Draft α) :=
  if name ∈ r.known then
    if name ∈ d.given then .error (.repeated name)
    else do
      return { value := ← inMember access name (r.set d.value name v), given := name :: d.given }
  else match r.keep with
    | some keep => do return { d with value := keep d.value name (← v.kept) }
    | none =>
      match v.textFault? with
      | some fault => .error (.malformed fault)
      | none => .ok d

def readFields (r : RecordReader α) (access : Access) :
    List (MemberName × Source) → Draft α → Except DecodeFault (Draft α)
  | [], d => .ok d
  | (k, v) :: rest, d => do
    let name ← memberText access k
    let d ← r.readField access d name v
    readFields r access rest d

def finish (r : RecordReader α) (d : Draft α) : Except DecodeFault α :=
  match r.required.find? (· ∉ d.given) with
  | some name => .error (.missing name)
  | none => .ok d.value

/-- Members in the order of the text, then the fault of the record itself, then missing fields. -/
def read (r : RecordReader α) (access : Access) (v : Source) : Except DecodeFault α :=
  match v.untagged with
  | record members fault => do
    let d ← r.readFields access members ⟨r.start, []⟩
    match fault with
    | some fault => throw (.malformed fault)
    | none => r.finish d
  | v => if v.isEmpty access then r.finish ⟨r.start, []⟩ else v.mistyped ("struct " ++ r.name)

end RecordReader

end Source

end ApiContract
