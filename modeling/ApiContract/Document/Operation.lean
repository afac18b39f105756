import ApiContract.Document.Parameter
import ApiContract.Message

namespace ApiContract

inductive Method where
  | get
  | put
  | post
  | delete
  | options
  | head
  | patch
deriving Repr, DecidableEq

namespace Method

/-- Every method, in the order in which the operations of a path are visited. -/
def all : List Method := [get, put, post, delete, options, head, patch]

def name : Method → String
  | get => "GET"
  | put => "PUT"
  | post => "POST"
  | delete => "DELETE"
  | options => "OPTIONS"
  | head => "HEAD"
  | patch => "PATCH"

/-- The member of a path item that holds the method's operation. -/
def key : Method → String
  | get => "get"
  | put => "put"
  | post => "post"
  | delete => "delete"
  | options => "options"
  | head => "head"
  | patch => "patch"

end Method

structure Response where
  description : String := ""
  schema : Option Schema := none
  extra : Members Json := []
deriving Repr

/-- A status code below 400 is a success. -/
def isSuccess (code : Nat) : Bool := code < 400

/-- The number that decimal digits spell, with a plus sign in front or without, if it has sixteen
bits. -/
def statusCode? (key : String) : Option Nat :=
  let digits := match key.toList with
    | '+' :: rest => rest
    | cs => cs
  if digits = [] ∨ ¬ digits.all Char.isDigit then none
  else
    let n := digits.foldl (fun n c => 10 * n + (c.toNat - '0'.toNat)) 0
    if n < 65536 then some n else none

structure Operation where
  identifier : Option String := none
  summary : Option String := none
  description : Option String := none
  tags : List String := []
  parameters : List ParameterEntry := []
  responses : Members Response := []
  deprecated : Option Bool := none
  extra : Members Json := []
deriving Repr

namespace Operation

/-- The response stored under the decimal digits of a code. -/
def response (op : Operation) (code : Nat) : Option Response :=
  op.responses.find? (toString code)

/-- Puts a response before the first whose code is not smaller. -/
def insertByCode (r : Nat × Response) : List (Nat × Response) → List (Nat × Response)
  | [] => [r]
  | q :: rest => if r.1 ≤ q.1 then r :: q :: rest else q :: insertByCode r rest

/-- The responses whose key is a status code, by code. -/
def statusCodes (op : Operation) : List (Nat × Response) :=
  (op.responses.filterMap fun (key, r) => (statusCode? key).map (·, r)).foldr insertByCode []

/-- What is told of the responses whose key is not a status code. -/
def statusCodeLog (op : Operation) : List LogLine :=
  (op.responses.names.filter fun key => (statusCode? key).isNone).map fun key =>
    ⟨.warn, "skipping response " ++ Text.quoted key ++ " of " ++
      op.identifier.getD "<anonymous>" ++ ": not a status code"⟩

end Operation

structure PathItem where
  parameters : List ParameterEntry := []
  get : Option Operation := none
  put : Option Operation := none
  post : Option Operation := none
  delete : Option Operation := none
  options : Option Operation := none
  head : Option Operation := none
  patch : Option Operation := none
  extra : Members Json := []
deriving Repr

namespace PathItem

def operation (item : PathItem) : Method → Option Operation
  | .get => item.get
  | .put => item.put
  | .post => item.post
  | .delete => item.delete
  | .options => item.options
  | .head => item.head
  | .patch => item.patch

def setOperation (item : PathItem) (method : Method) (op : Option Operation) : PathItem :=
  match method with
  | .get => { item with get := op }
  | .put => { item with put := op }
  | .post => { item with post := op }
  | .delete => { item with delete := op }
  | .options => { item with options := op }
  | .head => { item with head := op }
  | .patch => { item with patch := op }

/-- The operations of a path in the order of the methods. -/
def operations (item : PathItem) : List (Method × Operation) :=
  Method.all.filterMap fun m => (item.operation m).map (m, ·)

theorem operation_setOperation (item : PathItem) (m : Method) (op : Option Operation) :
    (item.setOperation m op).operation m = op := by
  cases m <;> rfl

theorem operation_setOperation_of_ne (item : PathItem) {m n : Method} (op : Option Operation)
    (h : m ≠ n) : (item.setOperation m op).operation n = item.operation n := by
  cases m <;> cases n <;> first | rfl | exact absurd rfl h

end PathItem

end ApiContract
