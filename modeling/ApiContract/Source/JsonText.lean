import ApiContract.Json.Token
import ApiContract.Source.Basic

namespace ApiContract.Source

/-- Which parts of a text are wanted. Members of a record that are not wanted are passed over, which
asks less of them than reading does. -/
inductive Plan where
  | whole
  | record (members : List (String × Plan))
  | each (item : Plan)

namespace Plan

/-- The plan for the next item of a list; a record may be given as the list of its fields. -/
def item : Plan → Plan
  | record ((_, plan) :: _) => plan
  | each plan => plan
  | _ => whole

/-- The plan for the items after the next one. -/
def afterItem : Plan → Plan
  | record members => record (members.drop 1)
  | plan => plan

/-- The plan for a member, if it is wanted. -/
def member? (name : String) : Plan → Option Plan
  | record members => members.lookup name
  | _ => some whole

end Plan

/-- A list or a record that is open, with the plan for what is to come and what it holds so far, the
last item or member first. -/
inductive Frame where
  | list (plan : Plan) (items : List Source)
  | record (plan : Plan) (members : List (MemberName × Source)) (name : String)

namespace Frame

def add (v : Source) : Frame → Frame
  | list plan items => list plan (v :: items)
  | record plan members name => record plan ((.text name, v) :: members) name

def close (fault : Option Json.Fault) : Frame → Source
  | list _ items => .list items.reverse (fault.map .json)
  | record _ members _ => .record members.reverse (fault.map .json)

end Frame

/-- A list or a record that is passed over. -/
inductive Bracket where
  | list
  | record
deriving Repr, DecidableEq

/-- What comes next where a value is passed over. -/
inductive Passing where
  | value
  | opened
  | memberName
  | colon
  | separator
deriving Repr, DecidableEq

inductive State where
  /-- A value is next; in a list that was just opened its end may come instead. -/
  | value (plan : Plan) (opened : Bool) (frames : List Frame)
  /-- The name of a member is next; right after the start the end may come instead. -/
  | memberName (plan : Plan) (members : List (MemberName × Source)) (opened : Bool)
    (frames : List Frame)
  | colon (plan : Option Plan) (frames : List Frame)
  /-- A comma or the end of the innermost list or record is next. -/
  | separator (frame : Frame) (frames : List Frame)
  | passing (expected : Passing) (brackets : List Bracket) (frames : List Frame)
  | done (v : Source)
  /-- The text went on after the value. -/
  | overrun (v : Source)
  | stopped (v : Source)

namespace State

/-- Nothing more can be read, and `v` is the last value. -/
def stop (v : Source) (frames : List Frame) : State :=
  .stopped (frames.foldl (fun v frame => (frame.add v).close none) v)

/-- Nothing more can be read, for there is no value. -/
def fail (fault : Json.Fault) (frames : List Frame) : State := stop (.broken (.json fault)) frames

/-- Nothing more can be read in `frame`, which has the fault itself. -/
def stopIn (fault : Json.Fault) (frame : Frame) (frames : List Frame) : State :=
  stop (frame.close (some fault)) frames

def accept (v : Source) : List Frame → State
  | [] => .done v
  | frame :: frames => .separator (frame.add v) frames

/-- A text may open this many lists and records inside each other. -/
def deepest : Nat := 127

def ofWord : Json.Word → Source
  | .null => .null
  | .true => .bool true
  | .false => .bool false

/-- A list closes without a value only right after its start; after a comma the comma is at
fault. -/
def closeEarly (opened : Bool) : List Frame → State
  | .list plan items :: frames =>
    if opened then accept ((Frame.list plan items).close none) frames
    else stopIn .trailingComma (.list plan items) frames
  | frames => fail .valueExpected frames

def stepValue (plan : Plan) (opened : Bool) (frames : List Frame) : Json.Token → State
  | .word (.ok w) => accept (ofWord w) frames
  | .word (.error fault) => stop (.misspelt (.json fault)) frames
  | .number (.ok n) _ => accept (.number n) frames
  | .number (.error fault) _ => stop (.misspelt (.json fault)) frames
  | .string (.ok s) _ => accept (.string s) frames
  | .string (.error fault) _ => fail fault frames
  | .beginList =>
    if frames.length < deepest then .value plan.item true (.list plan.afterItem [] :: frames)
    else stop (.list [] (some (.json .tooDeep))) frames
  | .beginRecord =>
    if frames.length < deepest then .memberName plan [] true frames
    else stop (.record [] (some (.json .tooDeep))) frames
  | .endList => closeEarly opened frames
  | .endRecord | .comma | .colon | .stray => fail .valueExpected frames

/-- The value that stands where a name is missing. -/
def instead : Json.Token → Option Found
  | .word (.ok w) => some (ofWord w).found
  | .number (.ok n) _ => some (.number n)
  | .beginList => some .list
  | .beginRecord => some .record
  | _ => none

def stepName (plan : Plan) (members : List (MemberName × Source)) (opened : Bool)
    (frames : List Frame) (token : Json.Token) : State :=
  let open_ : Frame := .record plan members ""
  match token with
  | .string (.ok s) _ => .colon (plan.member? s) (.record plan members s :: frames)
  | .string (.error fault) _ => stopIn fault open_ frames
  | .endRecord =>
    if opened then accept (open_.close none) frames else stopIn .trailingComma open_ frames
  | token => stopIn (.nameExpected (instead token)) open_ frames

def stepSeparator (frame : Frame) (frames : List Frame) (token : Json.Token) : State :=
  match frame, token with
  | .list plan items, .comma => .value plan.item false (.list plan.afterItem items :: frames)
  | .list plan items, .endList => accept ((Frame.list plan items).close none) frames
  | .list plan items, _ => stopIn .itemEndExpected (.list plan items) frames
  | .record plan members _, .comma => .memberName plan members false frames
  | .record plan members name, .endRecord =>
    accept ((Frame.record plan members name).close none) frames
  | .record plan members name, _ => stopIn .memberEndExpected (.record plan members name) frames

/-- A value that is passed over ends; if it is the member itself, null stands for it. -/
def passed (frames : List Frame) : List Bracket → State
  | [] => accept .null frames
  | bracket :: brackets => .passing .separator (bracket :: brackets) frames

def passValue (brackets : List Bracket) (frames : List Frame) : Json.Token → State
  | .word (.ok _) | .number _ none | .string _ none => passed frames brackets
  | .word (.error fault) | .number _ (some fault) | .string _ (some fault) =>
    fail fault frames
  | .beginList => .passing .opened (.list :: brackets) frames
  | .beginRecord => .passing .opened (.record :: brackets) frames
  | _ => fail .valueExpected frames

def passName (brackets : List Bracket) (frames : List Frame) : Json.Token → State
  | .string _ none => .passing .colon brackets frames
  | .string _ (some fault) => fail fault frames
  | token => fail (.nameExpected (instead token)) frames

def stepPassing (expected : Passing) (brackets : List Bracket) (frames : List Frame)
    (token : Json.Token) : State :=
  match expected, brackets, token with
  | .value, brackets, token => passValue brackets frames token
  | .memberName, brackets, token => passName brackets frames token
  | .colon, brackets, .colon => .passing .value brackets frames
  | .colon, _, _ => fail .colonExpected frames
  | _, .list :: brackets, .endList => passed frames brackets
  | _, .record :: brackets, .endRecord => passed frames brackets
  | .opened, .list :: brackets, token => passValue (.list :: brackets) frames token
  | .opened, .record :: brackets, token => passName (.record :: brackets) frames token
  | .separator, .list :: brackets, .comma => .passing .value (.list :: brackets) frames
  | .separator, .record :: brackets, .comma => .passing .memberName (.record :: brackets) frames
  | .separator, .list :: _, _ => fail .itemEndExpected frames
  | .separator, .record :: _, _ => fail .memberEndExpected frames
  | _, [], _ => fail .valueExpected frames

def step (state : State) (token : Json.Token) : State :=
  match state with
  | value plan opened frames => stepValue plan opened frames token
  | memberName plan members opened frames => stepName plan members opened frames token
  | colon plan frames =>
    match plan, token with
    | some plan, .colon => .value plan false frames
    | none, .colon => .passing .value [] frames
    | _, _ => fail .colonExpected frames
  | separator frame frames => stepSeparator frame frames token
  | passing expected brackets frames => stepPassing expected brackets frames token
  | done v => .overrun v
  | overrun v => .overrun v
  | stopped v => .stopped v

/-- The end of the text where a value was passed over. -/
def endPassing (expected : Passing) : List Bracket → Json.Fault
  | .list :: _ => if expected = .value then .endInValue else .endInList
  | .record :: _ => if expected = .value then .endInValue else .endInRecord
  | [] => .endInValue

/-- What was read when the text ends. -/
def finish : State → State
  | value _ true (frame :: frames) => stopIn .endInList frame frames
  | value _ _ frames => fail .endInValue frames
  | memberName plan members true frames => stopIn .endInRecord (.record plan members "") frames
  | memberName plan members false frames => stopIn .endInValue (.record plan members "") frames
  | colon _ frames => fail .endInRecord frames
  | separator (.list plan items) frames => stopIn .endInList (.list plan items) frames
  | separator (.record plan members name) frames =>
    stopIn .endInRecord (.record plan members name) frames
  | passing expected brackets frames => fail (endPassing expected brackets) frames
  | state => state

end State

/-- What some tokens say, and whether they go on after it. The first token that does not fit ends
the reading, and every open list and record then holds what came before it. -/
def ofTokens (plan : Plan) (tokens : List Json.Token) : Source × Bool :=
  match (tokens.foldl State.step (.value plan false [])).finish with
  | .done v | .stopped v => (v, false)
  | .overrun v => (v, true)
  | _ => (.broken (.json .endInValue), false)

/-- What stands in a JSON text, and whether the text goes on after it. -/
def ofJsonText (plan : Plan) (text : String) : Source × Bool :=
  ofTokens plan (Json.tokens Json.Numeral.value text.toList)

/-- Reads a value that was taken from a text. What follows the value counts only if the value is in
order. -/
def readAlone {α : Type} (read : Source → Except DecodeFault α) (found : Source × Bool) :
    Except DecodeFault α := do
  let a ← read found.1
  if found.2 then throw (.malformed (.json .trailingCharacters))
  return a

/-- Reads a whole JSON text. -/
def readJson {α : Type} (plan : Plan) (read : Source → Except DecodeFault α) (text : String) :
    Except DecodeFault α :=
  readAlone read (ofJsonText plan text)

end ApiContract.Source
