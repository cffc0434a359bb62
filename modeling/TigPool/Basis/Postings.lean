/-
# `Basis.Postings` — double entry over any accounts

A posting is a list of movements, each an account and a signed amount.  What it
does to one account is `moved`; what it does to a class of accounts — those in
one currency, at one place — is `shifted`.  A posting is `Balanced` for a
classification when it shifts nothing between classes, and posting only balanced
lists keeps the total of every class where it was.
-/
import TigPool.Basis.Table
import Mathlib.Data.List.Dedup
import Mathlib.Tactic.Ring

namespace Basis

set_option linter.unusedSectionVars false

variable {α γ ρ : Type*} [DecidableEq α] [DecidableEq γ]

/-- A list of accounts and signed amounts. -/
abbrev Movements (α : Type*) := List (α × ℤ)

/-- What the movements add to account `a`. -/
def moved (m : Movements α) (a : α) : ℤ :=
  (m.map fun p => if p.1 = a then p.2 else 0).sum

/-- What the movements add to the accounts of class `g`. -/
def shifted (c : α → γ) (m : Movements α) (g : γ) : ℤ :=
  (m.map fun p => if c p.1 = g then p.2 else 0).sum

/-- The movements shift nothing between classes. -/
def Balanced (c : α → γ) (m : Movements α) : Prop :=
  ∀ g, shifted c m g = 0

/-- One entry for each account with a net change. -/
def net (m : Movements α) : Movements α :=
  ((m.map Prod.fst).dedup.map fun a => (a, moved m a)).filter fun p => p.2 ≠ 0

@[simp] theorem moved_nil {a : α} : moved [] a = 0 := rfl

@[simp] theorem moved_cons {p : α × ℤ} {m : Movements α} {a : α} :
    moved (p :: m) a = (if p.1 = a then p.2 else 0) + moved m a := rfl

@[simp] theorem moved_append {m m' : Movements α} {a : α} :
    moved (m ++ m') a = moved m a + moved m' a := by
  simp [moved]

@[simp] theorem shifted_nil {c : α → γ} {g : γ} : shifted c [] g = 0 := rfl

@[simp] theorem shifted_cons {c : α → γ} {p : α × ℤ} {m : Movements α} {g : γ} :
    shifted c (p :: m) g = (if c p.1 = g then p.2 else 0) + shifted c m g := rfl

@[simp] theorem shifted_append {c : α → γ} {m m' : Movements α} {g : γ} :
    shifted c (m ++ m') g = shifted c m g + shifted c m' g := by
  simp [shifted]

/-- One at the account, zero elsewhere. -/
def mark (b a : α) : ℤ :=
  if b = a then 1 else 0

@[simp] theorem mark_self {a : α} : mark a a = 1 := if_pos rfl

theorem mark_of_ne {a b : α} (h : b ≠ a) : mark b a = 0 := if_neg h

/-- Movements as a linear combination of accounts, the form in which `ring`
compares two lists. -/
theorem moved_cons_mark {p : α × ℤ} {m : Movements α} {a : α} :
    moved (p :: m) a = p.2 * mark p.1 a + moved m a := by
  rw [moved_cons, mark]
  split <;> simp

theorem moved_eq_zero {m : Movements α} {a : α} (h : ∀ p ∈ m, p.1 ≠ a) : moved m a = 0 := by
  induction m with
  | nil => rfl
  | cons p m ih =>
      rw [moved_cons, if_neg (h p List.mem_cons_self), zero_add]
      exact ih fun q hq => h q (List.mem_cons_of_mem _ hq)

/-- The movements do the same to every account. -/
def SameMoves (m m' : Movements α) : Prop :=
  ∀ a, moved m a = moved m' a

theorem SameMoves.refl (m : Movements α) : SameMoves m m := fun _ => rfl

/-- Movements in the opposite direction. -/
def opposite (m : Movements α) : Movements α :=
  m.map fun p => (p.1, -p.2)

theorem shifted_opposite {c : α → γ} {m : Movements α} {g : γ} :
    shifted c (opposite m) g = -shifted c m g := by
  induction m with
  | nil => rfl
  | cons p m ih =>
      have h : opposite (p :: m) = (p.1, -p.2) :: opposite m := rfl
      rw [h, shifted_cons, shifted_cons, ih]
      split <;> simp [add_comm]

theorem Balanced.opposite {c : α → γ} {m : Movements α} (h : Balanced c m) :
    Balanced c (opposite m) := fun g => by
  rw [shifted_opposite, h g, neg_zero]

/-! ## Net entries -/

theorem mem_net {m : Movements α} {p : α × ℤ} (h : p ∈ net m) :
    p.1 ∈ m.map Prod.fst ∧ p.2 = moved m p.1 ∧ p.2 ≠ 0 := by
  obtain ⟨hmap, hne⟩ := List.mem_filter.mp h
  obtain ⟨a, ha, rfl⟩ := List.mem_map.mp hmap
  exact ⟨List.mem_dedup.mp ha, rfl, by simpa using hne⟩

theorem mem_net_iff {m : Movements α} {p : α × ℤ} : p ∈ net m ↔ p.2 = moved m p.1 ∧ p.2 ≠ 0 := by
  refine ⟨fun h => (mem_net h).2, fun ⟨heq, hne⟩ => ?_⟩
  refine List.mem_filter.mpr ⟨List.mem_map.mpr ⟨p.1, ?_, Prod.ext rfl heq.symm⟩, by simpa using hne⟩
  rw [List.mem_dedup]
  by_contra hmem
  refine hne (heq.trans (moved_eq_zero fun q hq hqp => hmem ?_))
  exact List.mem_map.mpr ⟨q, hq, hqp⟩

/-- No account has two net entries. -/
theorem net_keys_nodup {m : Movements α} : ((net m).map Prod.fst).Nodup := by
  refine List.Sublist.nodup (List.filter_sublist.map Prod.fst) ?_
  rw [List.map_map, show (Prod.fst ∘ fun a => (a, moved m a)) = id from rfl, List.map_id]
  exact List.nodup_dedup _

theorem moved_perm {m m' : Movements α} (h : m.Perm m') (a : α) : moved m a = moved m' a :=
  (h.map _).sum_eq

theorem moved_opposite {m : Movements α} {a : α} : moved (opposite m) a = -moved m a :=
  shifted_opposite (c := id)

/-- A sum over net entries is the sum over all accounts the movements name. -/
theorem sum_net {m : Movements α} {w : α → ℤ → ℤ} (h0 : ∀ a, w a 0 = 0) :
    ((net m).map fun p => w p.1 p.2).sum
      = ((m.map Prod.fst).dedup.map fun a => w a (moved m a)).sum := by
  rw [net]
  induction (m.map Prod.fst).dedup with
  | nil => rfl
  | cons a l ih =>
      rw [List.map_cons, List.filter_cons]
      by_cases h : moved m a = 0
      · rw [if_neg (by simpa using h), ih, List.map_cons, List.sum_cons, h, h0, zero_add]
      · rw [if_pos (by simpa using h), List.map_cons, List.sum_cons, ih, List.map_cons,
          List.sum_cons]

theorem sum_indicator {l : List α} (hl : l.Nodup) {w : α → ℤ} {a : α} :
    (l.map fun b => if b = a then w b else 0).sum = if a ∈ l then w a else 0 := by
  induction l with
  | nil => rfl
  | cons b l ih =>
      obtain ⟨hb, hl⟩ := List.nodup_cons.mp hl
      rw [List.map_cons, List.sum_cons, ih hl]
      by_cases hab : b = a
      · subst hab
        simp [hb]
      · simp [hab, Ne.symm hab]

@[simp] theorem moved_net {m : Movements α} {a : α} : moved (net m) a = moved m a := by
  have h := sum_net (m := m) (w := fun b x => if b = a then x else 0) (by simp)
  rw [moved, h, sum_indicator (List.nodup_dedup _)]
  split
  next => rfl
  next hmem =>
    refine (moved_eq_zero fun p hp hpa => hmem ?_).symm
    exact List.mem_dedup.mpr (List.mem_map.mpr ⟨p, hp, hpa⟩)

/-- Two lists of movements have the same net entries exactly if they do the same to every
account. -/
theorem perm_net_iff {m m' : Movements α} : (net m).Perm (net m') ↔ SameMoves m m' := by
  constructor
  · intro h a
    rw [← moved_net, ← @moved_net _ _ m', moved_perm h]
  · intro h
    refine (List.perm_ext_iff_of_nodup (.of_map _ net_keys_nodup) (.of_map _ net_keys_nodup)).mpr ?_
    intro p
    rw [mem_net_iff, mem_net_iff, h p.1]

/-- Adding up over a duplicate-free list of accounts that contains every
account of the movements. -/
theorem sum_moved {c : α → γ} {g : γ} {l : List α} (hl : l.Nodup) {m : Movements α}
    (hm : ∀ p ∈ m, p.1 ∈ l) :
    (l.map fun a => if c a = g then moved m a else 0).sum = shifted c m g := by
  induction m with
  | nil => simp
  | cons p m ih =>
      have ih := ih fun q hq => hm q (List.mem_cons_of_mem _ hq)
      have hp := hm p List.mem_cons_self
      have hsplit : (l.map fun a => if c a = g then moved (p :: m) a else 0).sum
          = (l.map fun a => if a = p.1 then (if c p.1 = g then p.2 else 0) else 0).sum
            + (l.map fun a => if c a = g then moved m a else 0).sum := by
        rw [← List.sum_map_add]
        congr 1
        refine List.map_congr_left fun a _ => ?_
        rw [moved_cons]
        by_cases hpa : p.1 = a
        · subst hpa
          split <;> simp
        · simp [hpa, Ne.symm hpa]
      rw [hsplit, ih, sum_indicator hl, if_pos hp, shifted_cons]

@[simp] theorem shifted_net {c : α → γ} {m : Movements α} {g : γ} :
    shifted c (net m) g = shifted c m g := by
  have h := sum_net (m := m) (w := fun a x => if c a = g then x else 0) (by simp)
  rw [shifted, h]
  exact sum_moved (List.nodup_dedup _) fun p hp =>
    List.mem_dedup.mpr (List.mem_map_of_mem hp)

theorem Balanced.net {c : α → γ} {m : Movements α} (h : Balanced c m) : Balanced c (net m) :=
  fun g => by rw [shifted_net, h g]

/-! ## Balanced lists -/

theorem Balanced.append {c : α → γ} {m m' : Movements α} (h : Balanced c m) (h' : Balanced c m') :
    Balanced c (m ++ m') := fun g => by
  rw [shifted_append, h g, h' g, add_zero]

/-- Within one class, a list is balanced when its amounts add up to zero. -/
theorem Balanced.within {c : α → γ} {m : Movements α} (g : γ) (hclass : ∀ p ∈ m, c p.1 = g)
    (hsum : (m.map (·.2)).sum = 0) : Balanced c m := fun g' => by
  have hall : shifted c m g' = (m.map fun p => if g = g' then p.2 else 0).sum := by
    rw [shifted]
    congr 1
    exact List.map_congr_left fun p hp => by rw [hclass p hp]
  rw [hall]
  split
  next => exact hsum
  next => simp

/-- From one account to another of the same class. -/
theorem Balanced.transfer {c : α → γ} {a b : α} (h : c a = c b) (x : ℤ) :
    Balanced c [(a, -x), (b, x)] :=
  .within (c b) (by simp [h]) (by simp)

end Basis
