import SwiftScribe.Json.Basic
import SwiftScribe.Json.Fault

/-!
# Numbers in JSON text

A number as it is written, and the value it stands for. `Numeral.read` follows the grammar;
`Numeral.value` keeps an integer that fits and turns every other number into a double.
-/

namespace SwiftScribe.Json

/-- **A number as written:** sign, digits, and the parts after the point and the `e`. -/
structure Numeral where
  negative : Bool
  whole : List Char
  fraction : List Char
  /-- The written exponent, zero if there is none. -/
  exponent : Int
  /-- Whether there is neither a point nor an exponent. -/
  plain : Bool

namespace Numeral

/-- The value of a decimal digit. -/
def digitValue (c : Char) : Nat := c.toNat - '0'.toNat

/-- The number that a list of digits stands for. -/
def ofDigits (digits : List Char) : Nat := digits.foldl (fun n c => 10 * n + digitValue c) 0

/-- The digits at the front, at least one, and the rest. -/
def readDigits (cs : List Char) : Except Fault (List Char × List Char) :=
  match cs.takeWhile Char.isDigit, cs.dropWhile Char.isDigit with
  | [], [] => .error .endOfValue
  | [], _ => .error .invalidNumber
  | digits, rest => .ok (digits, rest)

/-- The exponent at the front, if there is one. -/
def readExponent (cs : List Char) : Except Fault (Option Int × List Char) :=
  match cs with
  | e :: rest =>
    if e = 'e' ∨ e = 'E' then
      match rest with
      | '-' :: rest => (readDigits rest).map fun (digits, rest) => (some (-ofDigits digits), rest)
      | '+' :: rest => (readDigits rest).map fun (digits, rest) => (some (ofDigits digits), rest)
      | rest => (readDigits rest).map fun (digits, rest) => (some (ofDigits digits), rest)
    else .ok (none, cs)
  | [] => .ok (none, [])

/-- The digits after a point at the front, if there is one. -/
def readFraction (cs : List Char) : Except Fault (Option (List Char) × List Char) :=
  match cs with
  | '.' :: rest => (readDigits rest).map fun (digits, rest) => (some digits, rest)
  | cs => .ok (none, cs)

/-- **The number at the front of a text**, after its sign. No digit follows a leading zero. -/
def read (negative : Bool) (cs : List Char) : Except Fault (Numeral × List Char) := do
  let (whole, rest) ← readDigits cs
  if whole.head? = some '0' ∧ whole ≠ ['0'] then throw .invalidNumber
  let (fraction, rest) ← readFraction rest
  let (exponent, rest) ← readExponent rest
  return ({ negative, whole, fraction := fraction.getD [], exponent := exponent.getD 0,
            plain := fraction.isNone && exponent.isNone }, rest)

/-- The greatest significand that is kept exactly. -/
def significandLimit : Nat := 0xffffffffffffffff

/-- Appends digits to a significand until the next one would pass the limit. Gives the significand
and how many digits went into it. -/
def absorb (significand : Nat) : List Char → Nat × Nat
  | [] => (significand, 0)
  | c :: rest =>
    let next := 10 * significand + digitValue c
    if next ≤ significandLimit then
      let (total, kept) := absorb next rest
      (total, kept + 1)
    else (significand, 0)

/-- The significand and decimal exponent of a number. A dropped digit of the whole part adds one to
the exponent, a kept digit of the fraction takes one off. -/
def parts (n : Numeral) : Nat × Int :=
  let (whole, keptWhole) := absorb 0 n.whole
  let (significand, keptFraction) := absorb whole n.fraction
  (significand, n.exponent + (n.whole.length - keptWhole : Nat) - keptFraction)

/-- The number as a double; none if it is out of range. -/
def toDouble? (n : Numeral) : Option Double :=
  let (significand, exponent) := n.parts
  (Double.ofDecimal? significand exponent).map (Double.withSign n.negative)

/-- **The value of a number.** An integer stays one from `-2 ^ 63` to `2 ^ 64 - 1`, and `-0` is a
double. -/
def value (n : Numeral) : Except Fault Json :=
  let size := ofDigits n.whole
  if n.plain ∧ ¬ n.negative ∧ size ≤ 0xffffffffffffffff then .ok (.int size)
  else if n.plain ∧ n.negative ∧ 0 < size ∧ size ≤ 0x8000000000000000 then .ok (.int (-size))
  else
    match n.toDouble? with
    | some d => .ok (.double d)
    | none => .error .numberOutOfRange

end Numeral

end SwiftScribe.Json
