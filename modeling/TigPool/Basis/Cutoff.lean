/-
# `Basis.Cutoff` — sharing places among ranked candidates

A number of places is shared among candidates of different merit.  The best take whole
places first; where the places run out, the candidates tied at the cut-off share what is
left equally, and all behind them get nothing.  The conditions determine the shares, so
neither the order in which the candidates are listed nor what they are called matters.
-/
import Mathlib.Algebra.Order.BigOperators.Group.List
import Mathlib.Data.Rat.Cast.Order
import Mathlib.Tactic.Linarith

namespace Basis

variable {α β ι : Type*} [LinearOrder ι] {merit : α → ι} {candidates : List α} {places : ℕ}
  {share share' : α → ℚ}

/-- The shares of the places, one of each candidate. -/
structure Cutoff (merit : α → ι) (candidates : List α) (places : ℕ) (share : α → ℚ) : Prop where
  nonneg : ∀ a ∈ candidates, 0 ≤ share a
  le_one : ∀ a ∈ candidates, share a ≤ 1
  sum : (candidates.map share).sum = places
  ties : ∀ a ∈ candidates, ∀ b ∈ candidates, merit a = merit b → share a = share b
  cutoff : ∀ a ∈ candidates, ∀ b ∈ candidates, merit b < merit a → share a < 1 → share b = 0

namespace Cutoff

/-- The better get at least as much. -/
theorem mono (h : Cutoff merit candidates places share) {a b : α} (ha : a ∈ candidates)
    (hb : b ∈ candidates) (hab : merit b ≤ merit a) : share b ≤ share a := by
  rcases hab.eq_or_lt with heq | hlt
  · exact (h.ties b hb a ha heq).le
  · rcases (h.le_one a ha).eq_or_lt with hone | hone
    · rw [hone]
      exact h.le_one b hb
    · rw [h.cutoff a ha b hb hlt hone]
      exact h.nonneg a ha

/-- Whoever is behind one who got something has everything. -/
theorem eq_one (h : Cutoff merit candidates places share) {a b : α} (ha : a ∈ candidates)
    (hb : b ∈ candidates) (hab : merit b < merit a) (hpos : 0 < share b) : share a = 1 := by
  refine ((h.le_one a ha).eq_or_lt).resolve_right fun hlt => ?_
  rw [h.cutoff a ha b hb hab hlt] at hpos
  exact lt_irrefl 0 hpos

/-- Shares that differ somewhere have different sums: where one candidate gets less, none
gets more. -/
theorem le_of_lt (h : Cutoff merit candidates places share)
    (h' : Cutoff merit candidates places share') {a : α} (ha : a ∈ candidates)
    (hlt : share a < share' a) : ∀ b ∈ candidates, share b ≤ share' b := by
  intro b hb
  rcases lt_trichotomy (merit b) (merit a) with hba | hba | hba
  · -- Behind `a` the first shares are all zero, for `a` has less than a place.
    rw [h.cutoff a ha b hb hba (hlt.trans_le (h'.le_one a ha))]
    exact h'.nonneg b hb
  · rw [h.ties b hb a ha hba, h'.ties b hb a ha hba]
    exact hlt.le
  · -- Before `a` the second shares are all one, for `a` has something.
    rw [h'.eq_one hb ha hba ((h.nonneg a ha).trans_lt hlt)]
    exact h.le_one b hb

/-- The conditions determine the shares. -/
theorem unique (h : Cutoff merit candidates places share)
    (h' : Cutoff merit candidates places share') : ∀ a ∈ candidates, share a = share' a := by
  have key : ∀ {s s' : α → ℚ}, Cutoff merit candidates places s →
      Cutoff merit candidates places s' → ∀ a ∈ candidates, ¬ s a < s' a := by
    intro s s' hs hs' a ha hlt
    have hsum := List.sum_lt_sum s s' (hs.le_of_lt hs' ha hlt) ⟨a, ha, hlt⟩
    rw [hs.sum, hs'.sum] at hsum
    exact lt_irrefl _ hsum
  intro a ha
  exact le_antisymm (not_lt.mp (key h' h a ha)) (not_lt.mp (key h h' a ha))

/-- The order in which the candidates are listed does not matter. -/
theorem perm {candidates' : List α} (hperm : candidates.Perm candidates')
    (h : Cutoff merit candidates places share) : Cutoff merit candidates' places share where
  nonneg a ha := h.nonneg a (hperm.mem_iff.mpr ha)
  le_one a ha := h.le_one a (hperm.mem_iff.mpr ha)
  sum := by
    rw [← h.sum]
    exact (hperm.map share).sum_eq.symm
  ties a ha b hb := h.ties a (hperm.mem_iff.mpr ha) b (hperm.mem_iff.mpr hb)
  cutoff a ha b hb := h.cutoff a (hperm.mem_iff.mpr ha) b (hperm.mem_iff.mpr hb)

/-- Nor does what the candidates are called. -/
theorem of_map {merit : β → ι} {share : β → ℚ} {f : α → β}
    (h : Cutoff merit (candidates.map f) places share) :
    Cutoff (merit ∘ f) candidates places (share ∘ f) where
  nonneg a ha := h.nonneg _ (List.mem_map_of_mem ha)
  le_one a ha := h.le_one _ (List.mem_map_of_mem ha)
  sum := by
    rw [← h.sum, List.map_map]
  ties a ha b hb := h.ties _ (List.mem_map_of_mem ha) _ (List.mem_map_of_mem hb)
  cutoff a ha b hb := h.cutoff _ (List.mem_map_of_mem ha) _ (List.mem_map_of_mem hb)

end Cutoff

end Basis
