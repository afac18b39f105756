namespace ApiContract

/-- The number `± mantissa * 2 ^ exponent`. A mantissa below `2 ^ 52` has the exponent `-1074`. -/
structure Double where
  negative : Bool
  mantissa : Nat
  exponent : Int
deriving Repr, DecidableEq, Inhabited

namespace Double

def smallestExponent : Int := -1074

def largestExponent : Int := 971

def zero : Double := ⟨false, 0, smallestExponent⟩

def isZero (x : Double) : Bool := x.mantissa == 0

def negate (x : Double) : Double := { x with negative := !x.negative }

/-- The integer nearest to `num / den`, the even one of two. -/
def nearest (num den : Nat) : Nat :=
  let q := num / den
  let twice := 2 * (num % den)
  if twice < den then q else if den < twice then q + 1 else q + q % 2

/-- `num / den * 2 ^ -e` as a quotient. -/
def scaled (num den : Nat) (e : Int) : Nat × Nat :=
  if 0 ≤ e then (num, den * Nat.pow 2 e.toNat) else (num * Nat.pow 2 (-e).toNat, den)

/-- The exponent at which `num / den` has 53 bits before the point, or the smallest one. -/
def exponentOf (num den : Nat) : Int :=
  let e : Int := num.log2 - den.log2 - 52
  let (n, d) := scaled num den e
  max smallestExponent (if n < Nat.pow 2 52 * d then e - 1 else e)

/-- The double nearest to `num / den`, if it is within range. -/
def ofRatio? (negative : Bool) (num den : Nat) : Option Double :=
  if num = 0 then some ⟨negative, 0, smallestExponent⟩ else
    let e := exponentOf num den
    let (n, d) := scaled num den e
    let m := nearest n d
    let (m, e) := if m = Nat.pow 2 53 then (Nat.pow 2 52, e + 1) else (m, e)
    if e ≤ largestExponent then some ⟨negative, m, e⟩ else none

/-- The value without its sign, as a quotient. -/
def ratio (x : Double) : Nat × Nat :=
  if 0 ≤ x.exponent then (x.mantissa * Nat.pow 2 x.exponent.toNat, 1)
  else (x.mantissa, Nat.pow 2 (-x.exponent).toNat)

def ofNat? (n : Nat) : Option Double := ofRatio? false n 1

def mul? (x y : Double) : Option Double :=
  ofRatio? (x.negative != y.negative) (x.ratio.1 * y.ratio.1) (x.ratio.2 * y.ratio.2)

/-- The quotient by a number that is not zero. -/
def div? (x y : Double) : Option Double :=
  ofRatio? (x.negative != y.negative) (x.ratio.1 * y.ratio.2) (x.ratio.2 * y.ratio.1)

/-- The double nearest to `digits * 10 ^ exponent`. -/
def ofDecimal? (negative : Bool) (digits : Nat) (exponent : Int) : Option Double :=
  if 0 ≤ exponent then ofRatio? negative (digits * Nat.pow 10 exponent.toNat) 1
  else ofRatio? negative digits (Nat.pow 10 (-exponent).toNat)

end Double

end ApiContract
