/-! Binary floating-point numbers with 53 bits of precision, rounded to nearest with ties to even. -/
namespace AnchorAudit

/-- A double. A finite one is `mantissa * 2 ^ exponent` with its sign. -/
inductive Double where
  | nan (negative : Bool)
  | infinite (negative : Bool)
  | finite (negative : Bool) (mantissa : Nat) (exponent : Int)
  deriving DecidableEq

/-- The integer nearest to a quotient. A tie goes to the even neighbour. -/
def roundHalfEven (num den : Nat) : Nat :=
  let q := num / den
  let twice := 2 * (num % den)
  if twice < den then q
  else if den < twice then q + 1
  else if q % 2 = 0 then q
  else q + 1

namespace Double

def leastExponent : Int := -1074

def greatestExponent : Int := 971

/-- The exponent of the highest binary digit of a quotient of positive numbers. -/
def binaryExponent (num den : Nat) : Int :=
  let e : Int := (num.log2 : Int) - den.log2
  if num * Nat.pow 2 (-e).toNat < den * Nat.pow 2 e.toNat then e - 1 else e

/-- The quotient in steps of `2 ^ e`, rounded. -/
def inSteps (num den : Nat) (e : Int) : Nat :=
  roundHalfEven (num * Nat.pow 2 (-e).toNat) (den * Nat.pow 2 e.toNat)

/-- A mantissa and its step, brought below `2 ^ 53`. A step past the greatest is infinite. -/
def ofSteps (negative : Bool) (mantissa : Nat) (exponent : Int) : Double :=
  let (m, e) := if mantissa = Nat.pow 2 53 then (Nat.pow 2 52, exponent + 1) else (mantissa, exponent)
  if greatestExponent < e then .infinite negative else .finite negative m e

/-- The double nearest to a quotient with a positive divisor. -/
def ofQuotient (negative : Bool) (num den : Nat) : Double :=
  if num = 0 then .finite negative 0 leastExponent
  else
    let e := max (binaryExponent num den - 52) leastExponent
    ofSteps negative (inSteps num den e) e

def ofInt (n : Int) : Double := ofQuotient (decide (n < 0)) n.natAbs 1

/-- The double nearest to `mantissa * 10 ^ exponent`, where the mantissa has the given number of
decimal digits. Far outside the finite range the power of ten is not computed. -/
def ofDecimal (negative : Bool) (mantissa digits : Nat) (exponent : Int) : Double :=
  if mantissa = 0 then .finite negative 0 leastExponent
  else if 310 < digits + exponent then .infinite negative
  else if digits + exponent < -330 then .finite negative 0 leastExponent
  else ofQuotient negative (mantissa * Nat.pow 10 exponent.toNat) (Nat.pow 10 (-exponent).toNat)

def isZero : Double → Bool
  | .finite _ m _ => m == 0
  | _ => false

def isFinite : Double → Bool
  | .finite _ _ _ => true
  | _ => false

def isInfinite : Double → Bool
  | .infinite _ => true
  | _ => false

/-- The integer that the double stands for, if it has no fraction. -/
def toInt? : Double → Option Int
  | .finite negative m e =>
    let scaled := m * Nat.pow 2 e.toNat
    let den := Nat.pow 2 (-e).toNat
    if scaled % den = 0 then
      some (if negative then -((scaled / den : Nat) : Int) else ((scaled / den : Nat) : Int))
    else none
  | _ => none

/-- The interchange format: sign, eleven bits of exponent, fifty-two bits of fraction. -/
def bits : Double → Nat
  | .nan negative => negative.toNat * Nat.pow 2 63 + 0x7FF8000000000000
  | .infinite negative => negative.toNat * Nat.pow 2 63 + 0x7FF0000000000000
  | .finite negative m e =>
    negative.toNat * Nat.pow 2 63 +
      if m < Nat.pow 2 52 then m
      else ((e - leastExponent).toNat + 1) * Nat.pow 2 52 + (m - Nat.pow 2 52)

end Double

end AnchorAudit
