import ApiContract.Decimal.Shortest
import ApiContract.Json.Basic
import ApiContract.Text.Escape

namespace ApiContract

namespace Double

/-- A decimal without an exponent, and always with a digit after the point. -/
def positional (digits : List Char) (exponent : Int) : List Char :=
  if 0 ≤ exponent then digits ++ List.replicate exponent.toNat '0' ++ ['.', '0']
  else
    let places := (-exponent).toNat
    if places < digits.length then
      digits.take (digits.length - places) ++ '.' :: digits.drop (digits.length - places)
    else '0' :: '.' :: List.replicate (places - digits.length) '0' ++ digits

/-- One digit before the point, and none after it if there is no more. -/
def scientific (digits : List Char) (exponent : Int) : List Char :=
  let fraction := digits.drop 1
  let power := exponent + fraction.length
  digits.take 1 ++ (if fraction = [] then [] else '.' :: fraction) ++
    'e' :: (if power < 0 then '-' else '+') :: Nat.toDigits 10 power.natAbs

/-- The fewest digits that read back; an exponent below `10 ^ -5` and from `10 ^ 16` on. -/
def text (x : Double) : List Char :=
  let d := Decimal.shortest x
  let digits := Nat.toDigits 10 d.digits
  let power := d.exponent + digits.length
  let unsigned :=
    if x.isZero then ['0', '.', '0']
    else if -5 < power ∧ power ≤ 16 then positional digits d.exponent
    else scientific digits d.exponent
  if x.negative then '-' :: unsigned else unsigned

/-- The fewest digits that read back, without an exponent. -/
def positionalText (x : Double) : List Char :=
  let d := Decimal.shortest x
  let unsigned :=
    if x.isZero then ['0', '.', '0'] else positional (Nat.toDigits 10 d.digits) d.exponent
  if x.negative then '-' :: unsigned else unsigned

end Double

def Number.text : Number → List Char
  | .integer n => (toString n).toList
  | .double x => x.text

namespace Json

/-- How a character is written between quotes; only quotes, backslashes and controls change. -/
def escaped (c : Char) : List Char :=
  match c with
  | '"' => ['\\', '"']
  | '\\' => ['\\', '\\']
  | '\x08' => ['\\', 'b']
  | '\x0c' => ['\\', 'f']
  | '\n' => ['\\', 'n']
  | '\r' => ['\\', 'r']
  | '\t' => ['\\', 't']
  | c =>
    if c.toNat < 0x20 then
      ['\\', 'u', '0', '0', Text.hexDigit (c.toNat / 16), Text.hexDigit (c.toNat % 16)]
    else [c]

def quoted (s : String) : List Char :=
  '"' :: s.toList.flatMap escaped ++ ['"']

mutual

/-- The value on one line, without blanks. -/
def compactText : Json → List Char
  | null => ['n', 'u', 'l', 'l']
  | bool true => ['t', 'r', 'u', 'e']
  | bool false => ['f', 'a', 'l', 's', 'e']
  | number n => n.text
  | string s => quoted s
  | array [] => ['[', ']']
  | array (v :: rest) => '[' :: compactText v ++ compactItems rest
  | object [] => ['\x7b', '\x7d']
  | object ((k, v) :: rest) => '\x7b' :: quoted k ++ ':' :: compactText v ++ compactMembers rest

def compactItems : List Json → List Char
  | [] => [']']
  | v :: rest => ',' :: compactText v ++ compactItems rest

def compactMembers : List (String × Json) → List Char
  | [] => ['\x7d']
  | (k, v) :: rest => ',' :: quoted k ++ ':' :: compactText v ++ compactMembers rest

end

/-- A new line at a depth of two blanks each. -/
def newline (depth : Nat) : List Char :=
  '\n' :: List.replicate (2 * depth) ' '

mutual

/-- The value with every item and member on its own line. -/
def prettyText (depth : Nat) : Json → List Char
  | null => ['n', 'u', 'l', 'l']
  | bool true => ['t', 'r', 'u', 'e']
  | bool false => ['f', 'a', 'l', 's', 'e']
  | number n => n.text
  | string s => quoted s
  | array [] => ['[', ']']
  | array (v :: rest) =>
    '[' :: newline (depth + 1) ++ prettyText (depth + 1) v ++ prettyItems depth rest
  | object [] => ['\x7b', '\x7d']
  | object ((k, v) :: rest) =>
    '\x7b' :: newline (depth + 1) ++ quoted k ++ ':' :: ' ' :: prettyText (depth + 1) v ++
      prettyMembers depth rest

def prettyItems (depth : Nat) : List Json → List Char
  | [] => newline depth ++ [']']
  | v :: rest =>
    ',' :: newline (depth + 1) ++ prettyText (depth + 1) v ++ prettyItems depth rest

def prettyMembers (depth : Nat) : List (String × Json) → List Char
  | [] => newline depth ++ ['\x7d']
  | (k, v) :: rest =>
    ',' :: newline (depth + 1) ++ quoted k ++ ':' :: ' ' :: prettyText (depth + 1) v ++
      prettyMembers depth rest

end

def compact (v : Json) : String := String.ofList (compactText v)

def pretty (v : Json) : String := String.ofList (prettyText 0 v)

end Json

end ApiContract
