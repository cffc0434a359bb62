/-
# `TigPool.Wire` — what a transport hands over

A response is what `json.loads` makes of the bytes that TIG sends.  A text in it is a
sequence of code points that need not be Unicode: the escapes of JSON can write half of a
surrogate pair alone, and any integer.  A `jsonb` column does not take all such values;
`column` is what it holds of one that it takes.
-/
import TigPool.Json

namespace TigPool

open Basis

inductive Wire where
  | null
  | bool (value : Bool)
  | int (value : ℤ)
  | float (text : String)
  | str (codePoints : List ℕ)
  | arr (items : List Wire)
  | obj (members : List (List ℕ × Wire))

namespace Wire

def codePoints (text : String) : List ℕ := text.toList.map Char.toNat

/-! ## Reading -/

/-- `value.get(key)`: the member, if the value is an object that has it. -/
def get? (key : String) : Wire → Option Wire
  | .obj members => members.lookup (codePoints key)
  | _ => none

/-- `isinstance(value, dict)` -/
def isObject : Wire → Bool
  | .obj _ => true
  | _ => false

/-- `value == n`, for an integer `n` -/
def isInt (n : ℤ) : Wire → Bool
  | .bool value => (if value then 1 else 0) = n
  | .int value => value = n
  | .float text => (Number.ofText text).same (.finite n)
  | _ => false

/-! ## Texts -/

def isHigh (c : ℕ) : Bool := 0xD800 ≤ c ∧ c < 0xDC00
def isLow (c : ℕ) : Bool := 0xDC00 ≤ c ∧ c < 0xE000

/-- The character that a pair of surrogates stands for. -/
def pair (high low : ℕ) : Char := Char.ofNat (0x10000 + 0x400 * (high - 0xD800) + (low - 0xDC00))

/-- The characters of a text, if the column takes it: it refuses NUL and half of a pair. -/
def characters : List ℕ → Option (List Char)
  | [] => some []
  | c :: rest =>
      if isHigh c then
        match rest with
        | [] => none
        | d :: rest => if isLow d then (characters rest).map (pair c d :: ·) else none
      else if isLow c ∨ c = 0 then none
      else (characters rest).map (Char.ofNat c :: ·)

def text (codePoints : List ℕ) : Option String := (characters codePoints).map String.ofList

/-! ## The column -/

/-- Python writes an integer of this many digits at most. -/
def maxDigits : ℕ := 4300

mutual

/-- What the column holds of a value: it refuses numbers that are not finite.  Of two members
whose names become the same, it keeps the last. -/
def encoded : Wire → Option Json
  | .null => some .null
  | .bool value => some (.bool value)
  | .int value => if value.natAbs < 10 ^ maxDigits then some (.int value) else none
  | .float text => if (Number.ofText text).isFinite then some (.float text) else none
  | .str codePoints => (text codePoints).map .str
  | .arr items => (encodedItems items).map .arr
  | .obj members => (encodedMembers members).map .obj

def encodedItems : List Wire → Option (List Json)
  | [] => some []
  | item :: items => do
      let item ← encoded item
      return item :: (← encodedItems items)

def encodedMembers : List (List ℕ × Wire) → Option (List (String × Json))
  | [] => some []
  | (key, member) :: members => do
      let name ← text key
      let member ← encoded member
      let rest ← encodedMembers members
      return if (rest.lookup name).isSome then rest else Json.insertMember name member rest

end

/-- What the column holds of a value that is within the limits of the encoder and of the
database: how deep a value nests, and how long it is. -/
def column (limits : Wire → Bool) (value : Wire) : Option Json :=
  if limits value then value.encoded else none

theorem encoded_of_column {limits : Wire → Bool} {value : Wire} {stored : Json}
    (h : value.column limits = some stored) : value.encoded = some stored := by
  unfold column at h
  split at h
  next => exact h
  next => cases h

end Wire

end TigPool
