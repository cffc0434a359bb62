/-
# `TigPool.Money` — exact token-unit and collateral arithmetic

Amounts are whole token units, multipliers and credits exact fractions; nothing
here rounds except where a rule of the pool says so: collateral is rounded up to
a unit, the operator's fee is rounded down, and the rest of a round's pot is
divided by largest remainders.

A `Multiplier` carries the proof that it lies between 0 and 1, so a price outside
that range cannot be written down once `multiplier` has read it.
-/
import TigPool.Basis.Apportionment
import TigPool.Basis.Checked
import TigPool.Basis.Table
import TigPool.Json
import Mathlib.Data.Rat.Floor
import Mathlib.Data.String.Basic

namespace TigPool

open Basis

/-- What an operation of the pool can fail with: the exceptions of the service,
the constraint a database write runs into, and the errors of Python itself on
data of an unexpected shape. -/
inductive Error where
  | funds (message : String)
  | conflict (message : String)
  | insufficientFunds (message : String)
  | protocolData (message : String)
  | integrity (constraint : String)
  | value (message : String)
  | malformed (message : String)
deriving DecidableEq

abbrev Result := Except Error

def tokenDecimals : ℕ := 18

/-- One TIG in token units. -/
def tig : ℕ := 10 ^ tokenDecimals

/-- An amount of token units, at least one if `positive`. -/
def units (value : ℤ) (positive : Bool := false) : Result ℕ := do
  require (positive.toNat ≤ value) (.funds "amount must be an integer number of token units")
  return value.toNat

theorem units_eq_ok {value : ℤ} {positive : Bool} {n : ℕ} :
    units value positive = .ok n ↔ value = n ∧ positive.toNat ≤ n := by
  simp only [units, bind_eq_ok, require_eq_ok, pure_eq_ok, exists_const]
  omega

/-! ## Collateral -/

/-- What `Decimal` makes of a multiplier that was given: nothing, if it is
neither a string nor a decimal; a malformed string; an infinity or NaN; or the
sign, digits and exponent of `as_tuple`. -/
inductive DecimalInput where
  | other
  | malformed
  | special
  | finite (negative : Bool) (digits : List ℕ) (exponent : ℤ)
deriving DecidableEq

/-- The number that sign, digits and exponent denote. -/
def decimalValue (negative : Bool) (digits : List ℕ) (exponent : ℤ) : ℚ :=
  (if negative then -1 else 1) * (digits.foldl (fun n d => 10 * n + d) 0 : ℕ) * 10 ^ exponent

structure Multiplier where
  value : ℚ
  nonneg : 0 ≤ value
  le_one : value ≤ 1
deriving DecidableEq

/-- The multiplier of a member who has never been given another one. -/
def Multiplier.one : Multiplier := ⟨1, by decide, by decide⟩

def multiplier : DecimalInput → Result Multiplier
  | .other => .error (.funds "multiplier must be an exact decimal string")
  | .malformed => .error (.funds "invalid multiplier")
  | .special => .error (.funds "multiplier must be between 0 and 1")
  | .finite negative digits exponent =>
      let result := decimalValue negative digits exponent
      if h : 0 ≤ result ∧ result ≤ 1 then
        -- Bound input size without rounding a valid supplied value.
        if 78 < digits.length ∨ exponent < -78 then
          .error (.funds "multiplier supports at most 78 decimal places/digits")
        else .ok ⟨result, h.1, h.2⟩
      else .error (.funds "multiplier must be between 0 and 1")

/-- A bundle count as `collateral` accepts it. -/
def bundleCount : Json → Option ℕ
  | .int count => if 0 < count then some count.toNat else none
  | _ => none

/-- The collateral for the largest of the proposed tracks: the base amount, and
the part of it the member's multiplier asks for, rounded up to a whole unit. -/
def collateral (trackBundleCounts : List Json) (value : Multiplier)
    (decimals : ℤ := tokenDecimals) : Result (ℕ × ℕ) := do
  let counts := trackBundleCounts.filterMap bundleCount
  require (trackBundleCounts ≠ [] ∧ counts.length = trackBundleCounts.length)
    (.funds "each proposed track requires a positive bundle count")
  require (0 ≤ decimals ∧ decimals ≤ 36) (.funds "invalid token decimals")
  let base := 10 * 10 ^ decimals.toNat * counts.foldr max 0
  return (base, ⌈(base : ℚ) * value.value⌉.toNat)

theorem collateral_amount {counts : List Json} {value : Multiplier} {decimals : ℤ}
    {base amount : ℕ} (h : collateral counts value decimals = .ok (base, amount)) :
    (amount : ℤ) = ⌈(base : ℚ) * value.value⌉ := by
  simp only [collateral, bind_eq_ok, require_eq_ok, pure_eq_ok, Prod.mk.injEq] at h
  obtain ⟨_, _, _, _, rfl, rfl⟩ := h
  have hnonneg : (0 : ℚ) ≤ (10 * 10 ^ decimals.toNat
      * (counts.filterMap bundleCount).foldr max 0 : ℕ) * value.value :=
    mul_nonneg (Nat.cast_nonneg _) value.nonneg
  exact Int.toNat_of_nonneg (Int.ceil_nonneg hnonneg)

/-! ## The division of a round's pot -/

/-- The exact part of the pot, after the fee, that a member's credit is worth. -/
def exactAllocation (pot fee : ℤ) (credits : Table String ℚ) (key : String) : ℚ :=
  (pot - fee : ℤ) * (credits.lookup key).getD 0 / credits.total fun _ value => value

/-- 5% fee, then largest remainders; stable member-ID order resolves ties. -/
def allocateRewards (pot : ℤ) (credits : Table String ℚ) : Result (ℤ × Table String ℤ) := do
  let _ ← units pot
  require (credits.any (fun key _ => key = "") = false)
    (.funds "member IDs must be nonempty strings")
  require (credits.any (fun _ value => value < 0) = false)
    (.funds "credit must be an exact nonnegative fraction")
  let total := credits.total fun _ value => value
  if total = 0 then
    return (pot, credits.mapVals fun _ _ => 0)
  let fee := pot * 5 / 100
  let exact := exactAllocation pot fee credits
  let result := credits.mapVals fun key _ => ⌊exact key⌋
  let remaining := pot - fee - result.total fun _ value => value
  let order := serviceOrder exact credits.keys
  return (fee, result.mapVals fun key value =>
    value + if key ∈ order.take remaining.toNat then 1 else 0)

end TigPool
