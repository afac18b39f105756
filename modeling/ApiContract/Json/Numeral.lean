import ApiContract.Json.Fault

namespace ApiContract.Json

/-- The parts of a numeral, each with the most significant digit first. -/
structure Numeral where
  negative : Bool
  whole : List Nat
  fraction : List Nat
  /-- The exponent's sign, positive or not, and its digits. -/
  exponent : Option (Bool × List Nat)
deriving Repr, DecidableEq

namespace Numeral

def largestUnsigned : Nat := 0xffff_ffff_ffff_ffff

def largestPower : Nat := 0x7fff_ffff

/-- Appends digits to a number while it does not pass `limit`; the digits left over. -/
def absorb (limit : Nat) : Nat → List Nat → Nat × List Nat
  | n, [] => (n, [])
  | n, d :: rest => if 10 * n + d ≤ limit then absorb limit (10 * n + d) rest else (n, d :: rest)

/-- A power of ten that a double holds as nearly as it can. -/
def power (k : Nat) : Double :=
  (Double.ofDecimal? false 1 k).getD .zero

/-- The significand times a power of ten, in steps that each round. -/
def scale (x : Double) (exponent : Int) : Except Fault Double :=
  if exponent.natAbs ≤ 308 then
    if 0 ≤ exponent then
      match x.mul? (power exponent.natAbs) with
      | some y => .ok y
      | none => .error .numberOutOfRange
    else .ok ((x.div? (power exponent.natAbs)).getD .zero)
  else if x.isZero then .ok x
  else if 0 ≤ exponent then .error .numberOutOfRange
  else scale ((x.div? (power 308)).getD .zero) (exponent + 308)
termination_by exponent.natAbs
decreasing_by omega

/-- The double of a significand and a power of ten. -/
def double (negative : Bool) (significand : Nat) (exponent : Int) : Except Fault Number := do
  let x ← scale ((Double.ofNat? significand).getD .zero) exponent
  return .double (if negative then x.negate else x)

/-- An exponent too large to hold makes the number zero or puts it out of range. -/
def withExponent (negative : Bool) (significand : Nat) (start : Int) (positive : Bool)
    (digits : List Nat) : Except Fault Number :=
  match absorb largestPower 0 digits with
  | (power, []) => double negative significand (if positive then start + power else start - power)
  | (_, _ :: _) =>
    if significand ≠ 0 ∧ positive then .error .numberOutOfRange
    else .ok (.double { Double.zero with negative })

/-- As many digits as fit in 64 bits make up the significand and the others only shift the exponent;
one multiplication or division by a power of ten then gives the double. -/
def value (n : Numeral) : Except Fault Number :=
  let (significand, uncounted) := absorb largestUnsigned 0 n.whole
  if uncounted = [] ∧ n.fraction = [] ∧ n.exponent = none then
    if ¬ n.negative then .ok (.integer significand)
    else if 0 < significand ∧ significand ≤ 0x8000_0000_0000_0000 then .ok (.integer (-significand))
    else double true significand 0
  else
    let (significand, ignored) := absorb largestUnsigned significand n.fraction
    let start : Int := uncounted.length - (n.fraction.length - ignored.length : Nat)
    match n.exponent with
    | none => double n.negative significand start
    | some (positive, digits) => withExponent n.negative significand start positive digits

end Numeral

def digitValue (c : Char) : Nat := c.toNat - '0'.toNat

def takeDigits (cs : List Char) : List Nat × List Char :=
  ((cs.takeWhile Char.isDigit).map digitValue, cs.dropWhile Char.isDigit)

/-- What a scan of a numeral wants next and does not find: the end of the text is a fault of its
own, except where the number is only passed over. -/
def missingDigit (kept : Bool) : List Char → Fault
  | [] => if kept then .endInValue else .invalidNumber
  | _ => .invalidNumber

/-- The digits before the point: a single zero, or digits that do not start with one. -/
def scanWhole (kept : Bool) (cs : List Char) : Except Fault (List Nat × List Char) :=
  match takeDigits cs with
  | ([], rest) => .error (missingDigit kept rest)
  | (0 :: _ :: _, _) => .error .invalidNumber
  | found => .ok found

def scanFraction (kept : Bool) : List Char → Except Fault (List Nat × List Char)
  | '.' :: cs =>
    match takeDigits cs with
    | ([], rest) => .error (missingDigit kept rest)
    | found => .ok found
  | cs => .ok ([], cs)

def scanSign : List Char → Bool × List Char
  | '+' :: cs => (true, cs)
  | '-' :: cs => (false, cs)
  | cs => (true, cs)

def scanExponent (kept : Bool) (cs : List Char) :
    Except Fault (Option (Bool × List Nat) × List Char) :=
  match cs with
  | 'e' :: rest | 'E' :: rest =>
    let (positive, rest) := scanSign rest
    match takeDigits rest with
    | ([], rest) => .error (missingDigit kept rest)
    | (digits, rest) => .ok (some (positive, digits), rest)
  | cs => .ok (none, cs)

def scanMinus : List Char → Bool × List Char
  | '-' :: cs => (true, cs)
  | cs => (false, cs)

/-- Reads a numeral; `kept` says that its value is wanted and that it is not only passed over. -/
def scanNumeral (kept : Bool) (cs : List Char) : Except Fault (Numeral × List Char) := do
  let (negative, cs) := scanMinus cs
  let (whole, cs) ← scanWhole kept cs
  let (fraction, cs) ← scanFraction kept cs
  let (exponent, cs) ← scanExponent kept cs
  return (⟨negative, whole, fraction, exponent⟩, cs)

end ApiContract.Json
