/-
# `Basis.Spans` — rows that carry a cursor on

A long range is worked off piece by piece: each row of a log says which span was done, and has
moved a cursor from where it was.  `Carried step start rows c` says that the rows, the newest
first, have moved the cursor from `start` to `c`.  If each row does the numbers that come right
after the position before it, up to the position after it, the spans tile the range between
`start` and `c`: each number of the range is done in exactly one of them, and no other number is.
-/
import Mathlib.Data.List.Count
import Mathlib.Data.Int.Order.Basic

namespace Basis

variable {Row σ : Type*} {step step' : Row → σ → σ → Prop} {start c : σ} {rows : List Row}

/-- The rows, the newest first, have carried the cursor from the start to where it is. -/
inductive Carried (step : Row → σ → σ → Prop) (start : σ) : List Row → σ → Prop
  | none : Carried step start [] start
  | next {rows : List Row} {row : Row} {c c' : σ} : Carried step start rows c → step row c c' →
      Carried step start (row :: rows) c'

namespace Carried

theorem mono (h : Carried step start rows c)
    (hsub : ∀ row c c', step row c c' → step' row c c') : Carried step' start rows c := by
  induction h with
  | none => exact .none
  | next _ hstep ih => exact .next ih (hsub _ _ _ hstep)

/-- Each row has moved the cursor. -/
theorem of_mem (h : Carried step start rows c) {row : Row} (hrow : row ∈ rows) :
    ∃ c c', step row c c' := by
  induction h with
  | none => cases hrow
  | next _ hstep ih =>
      cases hrow with
      | head => exact ⟨_, _, hstep⟩
      | tail _ hrow => exact ih hrow

end Carried

/-- A row does the numbers between the position before it and the one after it. -/
structure Spans (step : Row → σ → σ → Prop) (position : σ → ℤ) (first last : Row → ℤ) : Prop where
  begins : ∀ {row c c'}, step row c c' → first row = position c + 1
  ends : ∀ {row c c'}, step row c c' → position c' = last row
  forward : ∀ {row c c'}, step row c c' → position c ≤ position c'

namespace Spans

variable {position : σ → ℤ} {first last : Row → ℤ}

theorem le (hs : Spans step position first last) (h : Carried step start rows c) :
    position start ≤ position c := by
  induction h with
  | none => exact le_rfl
  | next _ hstep ih => exact le_trans ih (hs.forward hstep)

/-- The spans tile what the cursor has passed. -/
theorem count (hs : Spans step position first last) (h : Carried step start rows c) (n : ℤ) :
    rows.countP (fun row => first row ≤ n ∧ n ≤ last row) =
      if position start < n ∧ n ≤ position c then 1 else 0 := by
  induction h with
  | none =>
      have hempty : ¬ (position start < n ∧ n ≤ position start) := by omega
      rw [if_neg hempty]
      rfl
  | @next rows row c c' hrows hstep ih =>
      have hbegins := hs.begins hstep
      have hends := hs.ends hstep
      have hforward := hs.forward hstep
      have hle := hs.le hrows
      simp only [List.countP_cons, ih, decide_eq_true_eq]
      split_ifs <;> omega

end Spans

end Basis
