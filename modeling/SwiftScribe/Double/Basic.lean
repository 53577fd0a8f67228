/-!
# Double precision numbers

A number of the 64-bit binary format, kept as its bit pattern. Its magnitude is an integer
significand times a power of two. `ofRatio?` rounds a quotient of naturals to the nearest such
number, a half going to the even neighbour; products and quotients are the exact ones, rounded
once (`mul?`, `div?`).
-/

namespace SwiftScribe

/-- **A double precision number**, as its bit pattern. Numbers read from JSON text are finite. -/
structure Double where
  bits : UInt64
deriving DecidableEq

namespace Double

/-- The power of two, `2 ^ n`. -/
def twoTo (n : Nat) : Nat := Nat.pow 2 n

/-- The power of ten, `10 ^ n`. -/
def tenTo (n : Nat) : Nat := Nat.pow 10 n

/-- The place of the sign bit, `2 ^ 63`. -/
abbrev signPlace : Nat := 0x8000000000000000

/-- How many fractions there are under one exponent, `2 ^ 52`. -/
abbrev fractions : Nat := 0x10000000000000

/-- Whether the sign bit is set. -/
def negative (x : Double) : Bool := x.bits.toNat / signPlace == 1

/-- The bit pattern without its sign. Magnitudes are ordered as these patterns are. -/
def magnitude (x : Double) : Nat := x.bits.toNat % signPlace

def isZero (x : Double) : Bool := x.magnitude == 0

/-- The integer significand: the fraction, with its leading one unless the number is subnormal. -/
def significand (x : Double) : Nat :=
  if x.magnitude / fractions = 0 then x.magnitude else fractions + x.magnitude % fractions

/-- The power of two that the significand is multiplied by. -/
def exponent (x : Double) : Int := (max (x.magnitude / fractions) 1 : Nat) - 1075

/-- The number with a given sign and unsigned bit pattern. -/
def ofMagnitude (negative : Bool) (magnitude : Nat) : Double :=
  ⟨UInt64.ofNat (if negative then signPlace + magnitude else magnitude)⟩

/-- Zero with a sign. -/
def zero (negative : Bool) : Double := ofMagnitude negative 0

/-- The quotient rounded to the nearest natural, a half to the even one. -/
def roundDiv (num den : Nat) : Nat :=
  let quotient := num / den
  let twice := 2 * (num % den)
  if twice < den then quotient
  else if den < twice then quotient + 1
  else quotient + quotient % 2

/-- **The double nearest to `num / den`.** None if that is out of range. The unit `2 ^ unit` is
chosen such that the quotient has 53 bits in it, or is the least one of the format. -/
def ofRatio? (negative : Bool) (num den : Nat) : Option Double :=
  if num = 0 then some (zero negative) else
  let guess : Int := max ((num.log2 : Int) - den.log2 - 53) (-1074)
  let above := 2 * fractions * den * twoTo guess.toNat ≤ num * twoTo (-guess).toNat
  let unit := if above then guess + 1 else guess
  let units := roundDiv (num * twoTo (-unit).toNat) (den * twoTo unit.toNat)
  let magnitude := (unit + 1074).toNat * fractions + units
  if magnitude < 2047 * fractions then some (ofMagnitude negative magnitude) else none

/-- The double nearest to a natural number below `2 ^ 64`. -/
def ofNat (n : Nat) : Double := (ofRatio? false n 1).getD (zero false)

/-- The same magnitude with the given sign. -/
def withSign (negative : Bool) (x : Double) : Double := ofMagnitude negative x.magnitude

/-- The product, rounded. None on overflow. -/
def mul? (x y : Double) : Option Double :=
  let scale := x.exponent + y.exponent
  ofRatio? (x.negative != y.negative)
    (x.significand * y.significand * twoTo scale.toNat) (twoTo (-scale).toNat)

/-- The quotient, rounded, by a nonzero number. None on overflow. -/
def div? (x y : Double) : Option Double :=
  let scale := x.exponent - y.exponent
  ofRatio? (x.negative != y.negative)
    (x.significand * twoTo scale.toNat) (y.significand * twoTo (-scale).toNat)

/-- Equality as numbers: both zeros are equal, all else by bit pattern. -/
def same (x y : Double) : Bool := x == y || (x.isZero && y.isZero)

/-- **The double that a decimal significand and exponent stand for.** The significand is rounded
first and then multiplied by, or divided by, the double nearest to the power of ten, so the
result may be one step away from the nearest double. -/
def ofDecimal? (significand : Nat) (exponent : Int) : Option Double :=
  if 0 ≤ exponent then
    if significand = 0 then some (zero false)
    else if exponent ≤ 308 then (ofRatio? false (tenTo exponent.toNat) 1).bind (ofNat significand).mul?
    else none
  else shrink (-exponent).toNat (ofNat significand)
where
  /-- Division by a power of ten, in steps of at most `10 ^ 308`. -/
  shrink (places : Nat) (x : Double) : Option Double :=
    if x.isZero then some x
    else if places ≤ 308 then (ofRatio? false (tenTo places) 1).bind x.div?
    else ((ofRatio? false (tenTo 308) 1).bind x.div?).bind (shrink (places - 308))
  termination_by places

end Double

end SwiftScribe
