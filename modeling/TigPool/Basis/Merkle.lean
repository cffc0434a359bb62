/-
# `Basis.Merkle` — climbing to the root of a tree of pairs

A list of nodes is paired level by level; a last node without a neighbour is carried up
as it is.  A branch lists, for one node, the siblings of its ancestors with the levels at
which they stand; a level at which the ancestor has no sibling is left out.  `climb` reads
the branch back: the level tells how far the position is shifted before its last bit says
on which side the sibling stands.

Climbing the branch of a node leads to the root.  Two climbs that lead to the same value
and turn the same way at every step, counted from the top, met the same siblings.
-/
import Mathlib

namespace Basis.Merkle

variable {α : Type} (node : α → α → α)

/-! ## Trees -/

/-- One level up. -/
def layer : List α → List α
  | a :: b :: rest => node a b :: layer rest
  | rest => rest

theorem length_layer : ∀ l : List α, (layer node l).length = (l.length + 1) / 2
  | [] => by simp [layer]
  | [_] => by simp [layer]
  | a :: b :: rest => by
      rw [layer, List.length_cons, length_layer rest]
      simp only [List.length_cons]
      omega

/-- The top of the tree over the nodes. -/
def root : List α → Option α
  | [] => none
  | [a] => some a
  | a :: b :: rest => root (layer node (a :: b :: rest))
termination_by l => l.length
decreasing_by
  rw [length_layer]
  simp only [List.length_cons]
  omega

def sibling (i : ℕ) : ℕ := if i % 2 = 1 then i - 1 else i + 1

/-- The siblings of node `i` and its ancestors, with their levels. -/
def branch (i level : ℕ) : List α → List (ℕ × α)
  | [] => []
  | [_] => []
  | a :: b :: rest =>
      ((a :: b :: rest)[sibling i]?.map (level, ·)).toList ++
        branch (i / 2) (level + 1) (layer node (a :: b :: rest))
termination_by l => l.length
decreasing_by
  rw [length_layer]
  simp only [List.length_cons]
  omega

/-- From a node at a position of a level up along a branch. -/
def climb (position level : ℕ) (value : α) : List (ℕ × α) → α
  | [] => value
  | (depth, other) :: rest =>
      let position := position >>> (depth - level)
      climb (position / 2) (depth + 1)
        (if position % 2 = 1 then node other value else node value other) rest

/-- The depths of a branch rise from the level and stay below the maximum. -/
def Fits (maximum : ℕ) : ℕ → List (ℕ × α) → Prop
  | _, [] => True
  | level, (depth, _) :: rest => level ≤ depth ∧ depth < maximum ∧ Fits maximum (depth + 1) rest

instance Fits.decidable (maximum : ℕ) :
    ∀ (level : ℕ) (steps : List (ℕ × α)), Decidable (Fits maximum level steps)
  | _, [] => .isTrue trivial
  | level, (depth, _) :: rest =>
      have := Fits.decidable maximum (depth + 1) rest
      inferInstanceAs (Decidable (level ≤ depth ∧ depth < maximum ∧ Fits maximum (depth + 1) rest))

variable {node} {maximum : ℕ}

/-- What stands above a node: it is paired with its sibling, or carried up. -/
theorem layer_getElem? : ∀ (l : List α) (i : ℕ), (layer node l)[i]? =
    match l[2 * i]?, l[2 * i + 1]? with
    | some a, some b => some (node a b)
    | first, _ => first
  | [], i => by simp [layer]
  | [a], i => by
      cases i with
      | zero => rfl
      | succ i => simp [layer, Nat.mul_succ]
  | a :: b :: rest, i => by
      cases i with
      | zero => rfl
      | succ i =>
          rw [layer, List.getElem?_cons_succ, layer_getElem? rest i]
          rfl

theorem getElem?_half {l : List α} {i : ℕ} {v : α} (hv : l[i]? = some v) :
    (layer node l)[i / 2]? = some (match l[sibling i]? with
      | some s => if i % 2 = 1 then node s v else node v s
      | none => v) := by
  rw [layer_getElem?]
  by_cases hodd : i % 2 = 1
  · have htwo : 2 * (i / 2) = i - 1 := by omega
    have hone : 2 * (i / 2) + 1 = i := by omega
    have hbefore : i - 1 < l.length := by
      have := (List.getElem?_eq_some_iff.mp hv).1
      omega
    rw [hone, htwo, hv, sibling, if_pos hodd, List.getElem?_eq_getElem hbefore]
    simp [hodd]
  · have htwo : 2 * (i / 2) = i := by omega
    rw [htwo, hv, sibling, if_neg hodd]
    cases l[i + 1]? <;> simp [hodd]

/-- A level that the branch leaves out is climbed by a shift alone. -/
theorem climb_skip {position level : ℕ} {value : α} : ∀ {steps : List (ℕ × α)},
    Fits maximum (level + 1) steps →
      climb node position level value steps = climb node (position / 2) (level + 1) value steps
  | [], _ => rfl
  | (depth, other) :: rest, h => by
      have hshift : depth - level = (depth - (level + 1)) + 1 := by
        have := h.1
        omega
      have hposition : position >>> (depth - level) = (position / 2) >>> (depth - (level + 1)) := by
        rw [hshift, Nat.shiftRight_eq_div_pow, Nat.shiftRight_eq_div_pow, Nat.div_div_eq_div_mul,
          Nat.pow_succ']
      simp only [climb, hposition]

theorem Fits.mono {level level' : ℕ} (hle : level ≤ level') : ∀ {steps : List (ℕ × α)},
    Fits maximum level' steps → Fits maximum level steps
  | [], _ => trivial
  | _ :: _, h => ⟨Nat.le_trans hle h.1, h.2⟩

theorem Fits.length_le {level : ℕ} (hle : level ≤ maximum) : ∀ {steps : List (ℕ × α)},
    Fits maximum level steps → level + steps.length ≤ maximum
  | [], _ => hle
  | (depth, _) :: rest, h => by
      have hrest := Fits.length_le h.2.1 h.2.2
      have hdepth := h.1
      simp only [List.length_cons]
      omega

/-- The branch of a node of a tree with at most `2 ^ k` nodes needs `k` levels. -/
theorem fits_branch {k : ℕ} : ∀ {i level : ℕ} {l : List α}, l.length ≤ 2 ^ k →
    Fits (level + k) level (branch node i level l) := by
  induction k with
  | zero =>
      intro i level l hlength
      match l, hlength with
      | [], _ | [_], _ => simp [branch, Fits]
      | _ :: _ :: _, hlength => simp at hlength
  | succ k ih =>
      intro i level l hlength
      match l, hlength with
      | [], _ | [_], _ => simp [branch, Fits]
      | a :: b :: rest, hlength =>
          have hlayer : (layer node (a :: b :: rest)).length ≤ 2 ^ k := by
            rw [length_layer]
            rw [Nat.pow_succ] at hlength
            omega
          have habove := @ih (i / 2) (level + 1) _ hlayer
          rw [show level + 1 + k = level + (k + 1) by omega] at habove
          rw [branch]
          cases (a :: b :: rest)[sibling i]? with
          | none => exact habove.mono (Nat.le_succ level)
          | some s => exact ⟨Nat.le_refl _, by omega, habove⟩

/-- Climbing the branch of a node leads to the root. -/
theorem climb_branch {k : ℕ} : ∀ {i level : ℕ} {l : List α} {v : α}, l.length ≤ 2 ^ k →
    l[i]? = some v → root node l = some (climb node i level v (branch node i level l)) := by
  induction k with
  | zero =>
      intro i level l v hlength hv
      match l, hlength with
      | [], _ => cases hv
      | [a], _ =>
          obtain ⟨hi, rfl⟩ := List.getElem?_eq_some_iff.mp hv
          simp [root, branch, climb]
      | _ :: _ :: _, hlength => simp at hlength
  | succ k ih =>
      intro i level l v hlength hv
      match l, hlength, hv with
      | [], _, hv => cases hv
      | [a], _, hv =>
          obtain ⟨hi, rfl⟩ := List.getElem?_eq_some_iff.mp hv
          simp [root, branch, climb]
      | a :: b :: rest, hlength, hv =>
          have hlayer : (layer node (a :: b :: rest)).length ≤ 2 ^ k := by
            rw [length_layer]
            rw [Nat.pow_succ] at hlength
            omega
          have habove := @ih (i / 2) (level + 1) _ _ hlayer (getElem?_half hv)
          rw [root, habove, branch]
          cases (a :: b :: rest)[sibling i]? with
          | none =>
              have hfits := @fits_branch _ node k (i / 2) (level + 1) _ hlayer
              exact congrArg some (climb_skip hfits).symm
          | some s =>
              simp only [Option.map_some, Option.toList_some, List.singleton_append, climb,
                Nat.sub_self, Nat.shiftRight_zero]

/-! ## The way up, step by step -/

/-- The steps of a climb: does the sibling stand on the left, and what is it? -/
def turns (position level : ℕ) : List (ℕ × α) → List (Bool × α)
  | [] => []
  | (depth, other) :: rest =>
      let position := position >>> (depth - level)
      (position % 2 = 1, other) :: turns (position / 2) (depth + 1) rest

/-- The two nodes of a step, in their order. -/
def pair (value : α) (turn : Bool × α) : α × α :=
  if turn.1 then (turn.2, value) else (value, turn.2)

variable (node) in
def ascend (value : α) (turns : List (Bool × α)) : α :=
  turns.foldl (fun value turn => node (pair value turn).1 (pair value turn).2) value

variable (node) in
/-- The pairs that are put together on the way. -/
def pairs (value : α) : List (Bool × α) → List (α × α)
  | [] => []
  | turn :: rest => pair value turn :: pairs (node (pair value turn).1 (pair value turn).2) rest

theorem climb_eq_ascend {position level : ℕ} {value : α} : ∀ {steps : List (ℕ × α)},
    climb node position level value steps = ascend node value (turns position level steps) := by
  intro steps
  induction steps generalizing position level value with
  | nil => rfl
  | cons step rest ih =>
      rw [climb, turns, ascend, List.foldl_cons, ← ascend, ← ih]
      by_cases hodd : (position >>> (step.1 - level)) % 2 = 1 <;> simp [pair, hodd]

theorem ascend_append {value : α} {before after : List (Bool × α)} :
    ascend node value (before ++ after) = ascend node (ascend node value before) after :=
  List.foldl_append

theorem pairs_append {value : α} {before after : List (Bool × α)} :
    pairs node value (before ++ after)
      = pairs node value before ++ pairs node (ascend node value before) after := by
  induction before generalizing value with
  | nil => rfl
  | cons turn before ih => rw [List.cons_append, pairs, ih]; rfl

theorem pair_inj {v w : α} {t u : Bool × α} (hturn : t.1 = u.1) (h : pair v t = pair w u) :
    v = w := by
  unfold pair at h
  rw [hturn] at h
  split at h
  · exact (Prod.mk.inj h).2
  · exact (Prod.mk.inj h).1

/-- Two ways up that turn the same way at every step and end at the same node started at
the same node, if no two of the pairs on them were put together to one node. -/
theorem ascend_inj {v w : α} {ts us : List (Bool × α)} (hturns : ts.map (·.1) = us.map (·.1))
    (hnode : ∀ p ∈ pairs node v ts, ∀ q ∈ pairs node w us, node p.1 p.2 = node q.1 q.2 → p = q)
    (h : ascend node v ts = ascend node w us) : v = w := by
  induction ts using List.reverseRecOn generalizing us with
  | nil =>
      obtain rfl : us = [] := List.map_eq_nil_iff.mp hturns.symm
      exact h
  | append_singleton ts t ih =>
      -- The last steps put together the same two nodes, on the same sides.
      rcases List.eq_nil_or_concat us with rfl | ⟨us, u, rfl⟩
      · simp at hturns
      · simp only [List.concat_eq_append, List.map_append, List.map_cons, List.map_nil] at *
        obtain ⟨hturns, hlast⟩ := List.append_inj' hturns rfl
        have hturn : t.1 = u.1 := List.head_eq_of_cons_eq hlast
        rw [pairs_append, pairs_append] at hnode
        rw [ascend_append, ascend_append] at h
        have htop := hnode _ (List.mem_append_right _ (List.mem_singleton_self _)) _
          (List.mem_append_right _ (List.mem_singleton_self _)) h
        refine ih hturns (fun p hp q hq => ?_) (pair_inj hturn htop)
        exact hnode p (List.mem_append_left _ hp) q (List.mem_append_left _ hq)

end Basis.Merkle
