/-
# `TigPool.Json` — the values that arrive from outside

Payloads, evidence, protocol records and stored `jsonb` columns.  An object
lists its members in key order, as `ledger.canonical` writes them, so two
values are equal exactly when their canonical texts are; this is why
`fingerprint`, the SHA-256 of that text, is modelled by the value itself.
A number with a fraction or an exponent is kept as its text: the pool refuses
such numbers wherever it counts.  Where the program compares two values itself,
it does so by `==`, for which an object has no order and numbers are their values.
-/
import Mathlib.Data.List.Infix
import Mathlib.Data.String.Basic
import TigPool.Basis.Number

namespace TigPool

open Basis

inductive Json where
  | null
  | bool (value : Bool)
  | int (value : ℤ)
  | float (text : String)
  | str (value : String)
  | arr (items : List Json)
  | obj (members : List (String × Json))

namespace Json

/-! ## Equality is decidable -/

mutual

def decEq : (a b : Json) → Decidable (a = b)
  | .null, .null => isTrue rfl
  | .bool x, .bool y => decidable_of_iff (x = y) (by simp)
  | .int x, .int y => decidable_of_iff (x = y) (by simp)
  | .float x, .float y => decidable_of_iff (x = y) (by simp)
  | .str x, .str y => decidable_of_iff (x = y) (by simp)
  | .arr xs, .arr ys => @decidable_of_iff _ (xs = ys) (by simp) (decEqItems xs ys)
  | .obj xs, .obj ys => @decidable_of_iff _ (xs = ys) (by simp) (decEqMembers xs ys)
  | .null, .bool _ | .null, .int _ | .null, .float _ | .null, .str _ | .null, .arr _
  | .null, .obj _ | .bool _, .null | .bool _, .int _ | .bool _, .float _ | .bool _, .str _
  | .bool _, .arr _ | .bool _, .obj _ | .int _, .null | .int _, .bool _ | .int _, .float _
  | .int _, .str _ | .int _, .arr _ | .int _, .obj _ | .float _, .null | .float _, .bool _
  | .float _, .int _ | .float _, .str _ | .float _, .arr _ | .float _, .obj _ | .str _, .null
  | .str _, .bool _ | .str _, .int _ | .str _, .float _ | .str _, .arr _ | .str _, .obj _
  | .arr _, .null | .arr _, .bool _ | .arr _, .int _ | .arr _, .float _ | .arr _, .str _
  | .arr _, .obj _ | .obj _, .null | .obj _, .bool _ | .obj _, .int _ | .obj _, .float _
  | .obj _, .str _ | .obj _, .arr _ => isFalse (by simp)

def decEqItems : (xs ys : List Json) → Decidable (xs = ys)
  | [], [] => isTrue rfl
  | [], _ :: _ | _ :: _, [] => isFalse (by simp)
  | x :: xs, y :: ys =>
      @decidable_of_iff _ (x = y ∧ xs = ys) (by simp)
        (@instDecidableAnd _ _ (decEq x y) (decEqItems xs ys))

def decEqMembers : (xs ys : List (String × Json)) → Decidable (xs = ys)
  | [], [] => isTrue rfl
  | [], _ :: _ | _ :: _, [] => isFalse (by simp)
  | (k, x) :: xs, (l, y) :: ys =>
      @decidable_of_iff _ (k = l ∧ x = y ∧ xs = ys) (by simp [and_assoc])
        (@instDecidableAnd _ _ _ (@instDecidableAnd _ _ (decEq x y) (decEqMembers xs ys)))

end

instance : DecidableEq Json := decEq

/-! ## Reading members -/

/-- `value.get(key)`: the member, if the value is an object that has it. -/
def get? (key : String) : Json → Option Json
  | .obj members => members.lookup key
  | _ => none

theorem mem_of_lookup {α : Type} {members : List (String × α)} {name : String} {value : α}
    (h : members.lookup name = some value) : (name, value) ∈ members := by
  induction members with
  | nil => cases h
  | cons first rest ih =>
      rw [List.lookup_cons] at h
      by_cases hname : name = first.1
      · subst hname
        rw [beq_self_eq_true] at h
        rw [← Option.some.inj h]
        exact List.mem_cons_self ..
      · rw [beq_false_of_ne hname] at h
        exact List.mem_cons_of_mem _ (ih h)

/-- Insert a member in key order. -/
def insertMember (key : String) (value : Json) : List (String × Json) → List (String × Json)
  | [] => [(key, value)]
  | member :: rest =>
      if key < member.1 then (key, value) :: member :: rest
      else if key = member.1 then (key, value) :: rest
      else member :: insertMember key value rest

/-- `{**value, key: member}` -/
def set (value : Json) (key : String) (member : Json) : Json :=
  match value with
  | .obj members => .obj (insertMember key member members)
  | other => other

/-- `isinstance(value, dict)` -/
def isObject : Json → Bool
  | .obj _ => true
  | _ => false

/-! ## Python's `==` -/

/-- The value of a number; `True` is one. -/
def number : Json → Option Number
  | .bool value => some (.finite (if value then 1 else 0))
  | .int value => some (.finite value)
  | .float text => some (.ofText text)
  | _ => none

/-- Are the two equal numbers? -/
def sameNumber (a b : Json) : Bool :=
  match a.number, b.number with
  | some m, some n => m.same n
  | _, _ => false

mutual

/-- `a == b` -/
def equals : (a b : Json) → Bool
  | .null, .null => true
  | .str x, .str y => x = y
  | .arr xs, .arr ys => equalsItems xs ys
  | .obj xs, .obj ys => equalsMembers xs ys && ys.all fun member => (xs.lookup member.1).isSome
  | a, b => sameNumber a b

def equalsItems : (xs ys : List Json) → Bool
  | [], [] => true
  | x :: xs, y :: ys => equals x y && equalsItems xs ys
  | _, _ => false

/-- Does the second object have an equal member of every name in the first? -/
def equalsMembers : (xs ys : List (String × Json)) → Bool
  | [], _ => true
  | (key, x) :: xs, ys =>
      (match ys.lookup key with
        | some y => equals x y
        | none => false) && equalsMembers xs ys

end

/-- Only a text equals a text. -/
@[simp] theorem equals_str {a : Json} {text : String} :
    a.equals (.str text) = true ↔ a = .str text := by
  cases a <;> simp [equals, sameNumber, number]

mutual

/-- Does no object have two members of one name?  No object that was parsed does. -/
def distinct : Json → Bool
  | .arr items => distinctItems items
  | .obj members => decide (members.map (·.1)).Nodup && distinctMembers members
  | _ => true

def distinctItems : List Json → Bool
  | [] => true
  | item :: items => distinct item && distinctItems items

def distinctMembers : List (String × Json) → Bool
  | [] => true
  | (_, member) :: members => distinct member && distinctMembers members

end

/-- Python's truth value. -/
def truthy : Json → Bool
  | .null => false
  | .bool value => value
  | .int value => value ≠ 0
  | .float text => (Number.ofText text).same (.finite 0) = false
  | .str value => value ≠ ""
  | .arr items => items ≠ []
  | .obj members => members ≠ []

end Json

end TigPool
