import ApiContract.Decimal.Shortest
import ApiContract.Json.Basic
import ApiContract.Text.Escape
import ApiContract.Text.Search

namespace ApiContract.Yaml

inductive Style where
  | plain
  | quoted
  | literal
  | folded
deriving Repr, DecidableEq

structure Scalar where
  text : String
  style : Style := .plain
  tag : Option String := none
deriving Repr, DecidableEq

inductive Meaning where
  | null
  | bool (b : Bool)
  | number (n : Number)
  /-- Infinity, or not a number. -/
  | notFinite
  /-- An integer beyond 64 bits. -/
  | wide
  | text
  /-- The tag says that the scalar is one of these, which it is not. -/
  | misnamed (expected : String)
  /-- A tag that no one but the reader of the scalar can know. -/
  | foreign (tag : String)
deriving Repr, DecidableEq

/-- A word for null. -/
def isNullWord (cs : List Char) : Bool :=
  ["null", "Null", "NULL", "~"].any (·.toList = cs)

def bool? (cs : List Char) : Option Bool :=
  if ["true", "True", "TRUE"].any (·.toList = cs) then some true
  else if ["false", "False", "FALSE"].any (·.toList = cs) then some false
  else none

def isSign (c : Char) : Bool := c = '+' || c = '-'

def dropSign : List Char → List Char
  | c :: cs => if isSign c then cs else c :: cs
  | [] => []

/-- Digits after a leading zero, which spell a text and not a number. -/
def isPadded (cs : List Char) : Bool :=
  match dropSign cs with
  | '0' :: d :: rest => (d :: rest).all Char.isDigit
  | _ => false

/-- The number that a nonempty run of digits spells in a base of at most sixteen. -/
def natural? (base : Nat) (cs : List Char) : Option Nat :=
  if cs = [] then none else
    cs.foldlM (fun n c => ((Text.hexValue? c).filter (· < base)).map (base * n + ·)) 0

/-- The base that the start of a number names, and the digits behind it. -/
def base? : List Char → Option (Nat × List Char)
  | '0' :: 'x' :: rest => some (16, rest)
  | '0' :: 'o' :: rest => some (8, rest)
  | '0' :: 'b' :: rest => some (2, rest)
  | _ => none

/-- The number that digits spell, in the base they name or in base ten. -/
def magnitude? (cs : List Char) : Option Nat :=
  match (base? cs).bind fun (base, digits) => natural? base digits with
  | some n => some n
  | none => natural? 10 cs

def integer? (cs : List Char) : Option Int :=
  if isPadded cs then none else
    match cs with
    | '+' :: rest => (magnitude? rest).map Int.ofNat
    | '-' :: rest => (magnitude? rest).map fun n => -(n : Int)
    | cs => (magnitude? cs).map Int.ofNat

/-- Digits with at most one point among them, and how many stand behind the point. -/
def mantissa? (cs : List Char) : Option (List Char × Nat) :=
  let whole := cs.takeWhile Char.isDigit
  match cs.dropWhile Char.isDigit with
  | [] => if whole = [] then none else some (whole, 0)
  | '.' :: fraction =>
    if fraction.all Char.isDigit ∧ whole ++ fraction ≠ [] then
      some (whole ++ fraction, fraction.length)
    else none
  | _ => none

def exponent? (cs : List Char) : Option Int :=
  match cs with
  | '-' :: rest => (natural? 10 rest).map fun n => -(n : Int)
  | '+' :: rest => (natural? 10 rest).map Int.ofNat
  | cs => (natural? 10 cs).map Int.ofNat

def decimal? (cs : List Char) : Option (Nat × Int) := do
  let isMark (c : Char) : Bool := c = 'e' || c = 'E'
  let (digits, places) ← mantissa? (cs.takeWhile (!isMark ·))
  let power ← match cs.dropWhile (!isMark ·) with
    | [] => some 0
    | _ :: rest => exponent? rest
  return (← natural? 10 digits, power - places)

/-- The nearest double; far outside the range of doubles it need not be computed. -/
def nearest? (negative : Bool) (digits : Nat) (exponent : Int) : Option Double :=
  let leading := Decimal.digitCount digits + exponent
  if digits = 0 ∨ leading < -400 then some { Double.zero with negative }
  else if 400 < leading then none
  else Double.ofDecimal? negative digits exponent

def double? (cs : List Char) : Option Double :=
  match cs with
  | '-' :: rest => (decimal? rest).bind fun (n, e) => nearest? true n e
  | '+' :: rest => (decimal? rest).bind fun (n, e) => nearest? false n e
  | cs => (decimal? cs).bind fun (n, e) => nearest? false n e

def isNotFinite (cs : List Char) : Bool :=
  [".inf", ".Inf", ".INF", "+.inf", "+.Inf", "+.INF", "-.inf", "-.Inf", "-.INF", ".nan", ".NaN",
    ".NAN"].any (·.toList = cs)

/-- The meaning of a scalar as an integer, if it spells one of at most 128 bits. -/
def integerMeaning? (cs : List Char) : Option Meaning :=
  (integer? cs).bind fun n =>
    if -0x8000_0000_0000_0000 ≤ n ∧ n < 0x1_0000_0000_0000_0000 then some (.number (.integer n))
    else if -0x8000_0000_0000_0000_0000_0000_0000_0000 ≤ n ∧
        n < 0x1_0000_0000_0000_0000_0000_0000_0000_0000 then some .wide
    else none

def doubleMeaning? (cs : List Char) : Option Meaning :=
  if isNotFinite cs then some .notFinite else (double? cs).map (.number ∘ .double)

/-- The meaning of an unquoted word. -/
def plainMeaning (cs : List Char) : Meaning :=
  if cs = [] ∨ isNullWord cs then .null
  else match bool? cs, integerMeaning? cs with
    | some b, _ => .bool b
    | none, some meaning => meaning
    | none, none => if isPadded cs then .text else (doubleMeaning? cs).getD .text

/-- The name of a tag of the user's own. -/
def ownTag? (tag : String) : Option String :=
  match tag.toList with
  | '!' :: [] => some tag
  | '!' :: rest => some (String.ofList rest)
  | _ => none

/-- The start of the tags that are common to all documents. -/
def commonTags : String := "tag:yaml.org,2002:"

def boolTag : String := commonTags ++ "bool"

def nullTag : String := commonTags ++ "null"

namespace Scalar

def taggedMeaning (cs : List Char) (tag : String) : Meaning :=
  match ownTag? tag with
  | some name => .foreign name
  | none =>
    if tag = boolTag then ((bool? cs).map .bool).getD (.misnamed "a boolean")
    else if tag = commonTags ++ "int" then (integerMeaning? cs).getD (.misnamed "an integer")
    else if tag = commonTags ++ "float" then (doubleMeaning? cs).getD (.misnamed "a float")
    else if tag = nullTag then if isNullWord cs then .null else .misnamed "null"
    else .text

/-- What a scalar is by itself, where nothing is expected of it. -/
def meaning (s : Scalar) : Meaning :=
  match s.tag with
  | some tag => taggedMeaning s.text.toList tag
  | none => if s.style = .plain then plainMeaning s.text.toList else .text

/-- Nothing is written, so that the place is empty. -/
def isEmpty (s : Scalar) : Bool := s.style = .plain && s.text = ""

end Scalar

end ApiContract.Yaml
