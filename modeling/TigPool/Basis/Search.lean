/-
# `Basis.Search` — the first true value of a rising predicate

A binary search over an interval of heights, whose probe may fail.  The predicate is
false up to some height and true from there on; the caller knows that it is true at the
last height of the interval.  The search then ends at the first height where it is true.
-/
import TigPool.Basis.Checked
import Mathlib.Order.Bounds.Basic
import Mathlib.Tactic.Common

namespace Basis

variable {ε : Type}

/-- `while first < last`: halve the interval, keeping a true value at its end. -/
def firstTrue (probe : ℕ → Except ε Bool) (first last : ℕ) : Except ε ℕ :=
  if _h : first < last then do
    let middle := (first + last) / 2
    if ← probe middle then firstTrue probe first middle
    else firstTrue probe (middle + 1) last
  else .ok first
termination_by last - first

variable {probe : ℕ → Except ε Bool} {holds : ℕ → Bool}

theorem firstTrue_step {first last : ℕ} (hprobe : ∀ h ≤ last, probe h = .ok (holds h))
    (h : first < last) : firstTrue probe first last =
      if holds ((first + last) / 2) then firstTrue probe first ((first + last) / 2)
      else firstTrue probe ((first + last) / 2 + 1) last := by
  have hmiddle := hprobe ((first + last) / 2) (by omega)
  rw [firstTrue, dif_pos h]
  simp only [hmiddle]
  rfl

/-- The search ends at the first height of the interval where the predicate holds; nothing is
asked beyond the interval. -/
theorem firstTrue_spec {first last : ℕ} (hprobe : ∀ h ≤ last, probe h = .ok (holds h))
    (hrises : ∀ {a b}, a ≤ b → b ≤ last → holds a → holds b) (hle : first ≤ last)
    (hlast : holds last) :
    ∃ height ≤ last, firstTrue probe first last = .ok height ∧
      IsLeast {h | first ≤ h ∧ holds h} height := by
  induction hn : last - first using Nat.strong_induction_on generalizing first last with
  | _ n ih =>
    by_cases hlt : first < last
    · rw [firstTrue_step hprobe hlt]
      by_cases hmiddle : holds ((first + last) / 2)
      · -- The first true value is not beyond the middle.
        obtain ⟨height, hheight, hsearch, hleast⟩ :=
          ih ((first + last) / 2 - first) (by omega) (fun h hh => hprobe h (by omega))
            (fun hab hb => hrises hab (by omega)) (by omega) hmiddle rfl
        rw [if_pos hmiddle]
        exact ⟨height, by omega, hsearch, hleast⟩
      · -- Nothing up to the middle is true.
        obtain ⟨height, hheight, hsearch, hmem, hlower⟩ :=
          ih (last - ((first + last) / 2 + 1)) (by omega) hprobe hrises (by omega) hlast rfl
        rw [if_neg hmiddle]
        refine ⟨height, hheight, hsearch, ⟨by have := hmem.1; omega, hmem.2⟩, ?_⟩
        intro h hh
        refine hlower ⟨?_, hh.2⟩
        by_contra hbelow
        exact hmiddle (hrises (by omega) (by omega) hh.2)
    · obtain rfl : first = last := by omega
      refine ⟨first, le_rfl, ?_, ⟨le_rfl, hlast⟩, fun h hh => hh.1⟩
      rw [firstTrue, dif_neg hlt]

end Basis
