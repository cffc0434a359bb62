/-
# `Basis.Number` — the values of numerals

A dynamic language compares numbers by value, whatever their type: an integer is exact, and
a numeral with a fraction or an exponent is the binary64 value next to it, which Lean's own
model of floating-point numbers rounds.  Beyond the largest of these lie the infinities;
what is not a number equals nothing, itself included.
-/
import Mathlib.Algebra.Order.Ring.Rat

namespace Basis

open Float.Model

inductive Number where
  | finite (value : ℚ)
  | infinite (negative : Bool)
  | nan
deriving DecidableEq

namespace Number

/-- `a == b` -/
def same : Number → Number → Bool
  | finite a, finite b => a = b
  | infinite a, infinite b => a = b
  | _, _ => false

/-- `a <= b` -/
def atMost : Number → Number → Bool
  | finite a, finite b => a ≤ b
  | infinite a, infinite b => a || !b
  | finite _, infinite b => !b
  | infinite a, finite _ => a
  | _, _ => false

def neg : Number → Number
  | finite value => finite (-value)
  | infinite negative => infinite !negative
  | nan => nan

/-- The value of a floating-point number that may be out of range yet. -/
def ofFloat : UnpackedFloat → Number
  | .infinity sign => infinite (sign == .negative)
  | .notANumber => nan
  | .zero _ => finite 0
  | .finite sign mantissa exponent _ =>
      let size := mkRat (mantissa * 2 ^ exponent.toNat) (2 ^ (-exponent).toNat)
      if 2 ^ 1024 ≤ size then infinite (sign == .negative)
      else finite (if sign == .negative then -size else size)

/-- The number that decimal digits write. -/
def digits (text : List Char) : ℕ :=
  text.foldl (fun n c => 10 * n + (c.toNat - '0'.toNat)) 0

def exponent : List Char → ℤ
  | '-' :: text => -digits text
  | '+' :: text => digits text
  | text => digits text

/-- The value of a numeral without a sign. -/
def magnitude (text : List Char) : Number :=
  let mantissa := text.takeWhile (· ∉ ['e', 'E'])
  let scale := exponent ((text.dropWhile (· ∉ ['e', 'E'])).drop 1)
  let fraction := (mantissa.dropWhile (· ≠ '.')).drop 1
  ofFloat (UnpackedFloat.ofScientific .binary64 (digits (mantissa.filter (· ≠ '.')))
    (scale - fraction.length))

/-- The value of a numeral with a fraction or an exponent. -/
def ofText (text : String) : Number :=
  match text.toList with
  | ['N', 'a', 'N'] => nan
  | ['I', 'n', 'f', 'i', 'n', 'i', 't', 'y'] => infinite false
  | ['-', 'I', 'n', 'f', 'i', 'n', 'i', 't', 'y'] => infinite true
  | '-' :: text => (magnitude text).neg
  | text => magnitude text

def isFinite : Number → Bool
  | finite _ => true
  | _ => false

example : ofText "2.00000000000000000001" = finite 2 := by decide +kernel
example : ofText "-1.8e308" = infinite true := by decide +kernel

end Number

end Basis
