import SwiftScribe.Double.Shortest

/-!
# Number text

How the digits of a double are laid out: positional while the decimal exponent of the first digit
lies in a range, scientific outside it. A `Layout` holds what differs between two formats.
-/

namespace SwiftScribe

namespace Double

/-- **A format for doubles.** -/
structure Layout where
  /-- The least decimal exponent of the first digit that is written positionally. -/
  positionalFrom : Int
  /-- The least decimal exponent above those written positionally. -/
  positionalBelow : Int
  /-- What stands before a positive exponent. -/
  plus : String
  tie : Tie

/-- Doubles in JSON text: `1.0`, `0.00001`, `1e+16`, `1e-6`. -/
def Layout.json : Layout := ⟨-5, 16, "+", .toEven⟩

/-- Doubles in debug text: `1.0`, `0.0001`, `1e16`, `1e-5`. -/
def Layout.debug : Layout := ⟨-4, 16, "", .up⟩

/-- Positional notation, with at least one digit on each side of the point. -/
def positional (digits : List Char) (exponent : Int) : List Char :=
  if 0 ≤ exponent then digits ++ List.replicate exponent.toNat '0' ++ ['.', '0']
  else
    let places := (-exponent).toNat
    if places < digits.length then
      digits.take (digits.length - places) ++ '.' :: digits.drop (digits.length - places)
    else '0' :: '.' :: List.replicate (places - digits.length) '0' ++ digits

/-- Scientific notation: one digit, the others after a point if there are any, the exponent. -/
def scientific (plus : String) (digits : List Char) (leading : Int) : List Char :=
  let mantissa :=
    match digits with
    | d :: e :: rest => d :: '.' :: e :: rest
    | short => short
  mantissa ++ 'e' :: (if leading < 0 then "" else plus).toList ++ (toString leading).toList

/-- **The text of a double in a layout.** -/
def format (layout : Layout) (x : Double) : String :=
  let decimal := x.shortest layout.tie
  let digits := Nat.toDigits 10 decimal.digits
  let leading : Int := digits.length - 1 + decimal.exponent
  let body :=
    if layout.positionalFrom ≤ leading ∧ leading < layout.positionalBelow then
      positional digits decimal.exponent
    else scientific layout.plus digits leading
  String.ofList (if x.negative then '-' :: body else body)

end Double

end SwiftScribe
