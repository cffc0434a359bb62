/-
# `Basis.Apportionment` — dividing a whole number of units by largest remainders

A whole number `N` of units is to be divided among finitely many claimants
whose exact quotas `q k` add up to `N` but need not be whole.  Everyone first
receives the floor of the quota; the units that are left over go, one each, to
the claimants with the largest fractional parts, a tie being broken towards the
smaller claimant.

Nothing here knows what is being divided.  The claimants are the elements of a
duplicate-free list over any linear order, the quotas live in any linearly
ordered field with a floor, and the rule is stated twice:

| | |
| :-- | :-- |
| `serviceOrder`, `served` | what a program does: sort, then take a prefix |
| `rank` | what the order means: how many claimants come before this one |

`mem_served_iff` says the two agree, and everything after it argues with ranks,
which do not depend on the order in which the claimants are listed.
-/
import Mathlib.Algebra.Order.Floor.Ring
import Mathlib.Algebra.Order.BigOperators.Group.List
import Mathlib.Data.List.Sort
import Mathlib.Tactic.Linarith

namespace Basis

open List

set_option linter.unusedSectionVars false

variable {κ R : Type*} [LinearOrder κ] [Field R] [LinearOrder R] [FloorRing R]

/-! ## The order of service -/

/-- `Before q a b`: claimant `a` is served before `b`, having the larger
fractional part or, at equal fractional parts, the smaller name. -/
def Before (q : κ → R) (a b : κ) : Prop :=
  Int.fract (q b) < Int.fract (q a) ∨ (Int.fract (q a) = Int.fract (q b) ∧ a < b)

instance (q : κ → R) (a b : κ) : Decidable (Before q a b) :=
  inferInstanceAs (Decidable (_ ∨ _))

theorem before_irrefl {q : κ → R} {a : κ} : ¬ Before q a a := by
  simp [Before]

theorem before_asymm {q : κ → R} {a b : κ} (h : Before q a b) : ¬ Before q b a := by
  rintro (h' | ⟨h', hlt⟩)
  · rcases h with h | ⟨h, _⟩
    · exact lt_asymm h h'
    · exact absurd h h'.ne
  · rcases h with h | ⟨_, h⟩
    · exact absurd h' h.ne
    · exact lt_asymm h hlt

theorem before_trans {q : κ → R} {a b c : κ} (hab : Before q a b) (hbc : Before q b c) :
    Before q a c := by
  rcases hab with hab | ⟨hab, hab'⟩ <;> rcases hbc with hbc | ⟨hbc, hbc'⟩
  · exact Or.inl (hbc.trans hab)
  · exact Or.inl (hbc ▸ hab)
  · exact Or.inl (hab ▸ hbc)
  · exact Or.inr ⟨hab.trans hbc, hab'.trans hbc'⟩

theorem before_total {q : κ → R} {a b : κ} (h : a ≠ b) : Before q a b ∨ Before q b a := by
  rcases lt_trichotomy (Int.fract (q a)) (Int.fract (q b)) with hlt | heq | hgt
  · exact Or.inr (Or.inl hlt)
  · rcases lt_or_gt_of_ne h with hab | hba
    · exact Or.inl (Or.inr ⟨heq, hab⟩)
    · exact Or.inr (Or.inr ⟨heq.symm, hba⟩)
  · exact Or.inl (Or.inl hgt)

/-- The claimants in the order in which the left-over units are handed out. -/
def serviceOrder (q : κ → R) (ks : List κ) : List κ :=
  ks.insertionSort fun a b => ¬ Before q b a

/-- The claimants that receive one of the first `n` left-over units. -/
def served (q : κ → R) (ks : List κ) (n : ℕ) : List κ :=
  (serviceOrder q ks).take n

/-- How many of the claimants are served before `k`. -/
def rank (q : κ → R) (ks : List κ) (k : κ) : ℕ :=
  ks.countP fun j => Before q j k

theorem serviceOrder_perm {q : κ → R} {ks : List κ} : serviceOrder q ks ~ ks :=
  perm_insertionSort _ ks

theorem serviceOrder_pairwise {q : κ → R} {ks : List κ} (h : ks.Nodup) :
    (serviceOrder q ks).Pairwise (Before q) := by
  have hsorted : (serviceOrder q ks).Pairwise fun a b => ¬ Before q b a := by
    refine @pairwise_insertionSort _ (fun a b => ¬ Before q b a) _ ⟨?_⟩ ⟨?_⟩ ks
    · intro a b
      by_cases hab : Before q b a
      · exact Or.inr (before_asymm hab)
      · exact Or.inl hab
    · intro a b c hab hbc hca
      rcases eq_or_ne a b with rfl | hne
      · exact hbc hca
      · exact hbc (before_trans hca ((before_total hne).resolve_right hab))
  have hne : (serviceOrder q ks).Pairwise (· ≠ ·) := (serviceOrder_perm.nodup_iff).mpr h
  exact (hsorted.and hne).imp fun ⟨hab, hne⟩ => (before_total hne).resolve_right hab

/-- In a strictly ordered list a prefix consists of the elements with few
predecessors. -/
theorem mem_take_iff_countP {q : κ → R} {k : κ} :
    ∀ {l : List κ}, l.Pairwise (Before q) → ∀ n : ℕ,
      k ∈ l.take n ↔ k ∈ l ∧ l.countP (fun j => Before q j k) < n
  | [], _, n => by simp
  | a :: t, h, 0 => by simp
  | a :: t, h, n + 1 => by
      obtain ⟨ha, ht⟩ := pairwise_cons.mp h
      have ih := mem_take_iff_countP (k := k) ht n
      rw [take_succ_cons, mem_cons, mem_cons]
      constructor
      · rintro (rfl | hk)
        · have hnone : (k :: t).countP (fun j => Before q j k) = 0 := by
            rw [countP_eq_zero]
            intro j hj
            rcases mem_cons.mp hj with rfl | hj
            · simpa using before_irrefl
            · simpa using before_asymm (ha j hj)
          exact ⟨Or.inl rfl, by omega⟩
        · obtain ⟨hmem, hlt⟩ := ih.mp hk
          refine ⟨Or.inr hmem, ?_⟩
          rw [countP_cons]
          split <;> omega
      · rintro ⟨rfl | hmem, hlt⟩
        · exact Or.inl rfl
        · refine Or.inr (ih.mpr ⟨hmem, ?_⟩)
          rw [countP_cons_of_pos (by simpa using ha k hmem)] at hlt
          omega

theorem mem_served_iff {q : κ → R} {ks : List κ} (h : ks.Nodup) {k : κ} {n : ℕ} :
    k ∈ served q ks n ↔ k ∈ ks ∧ rank q ks k < n := by
  rw [served, mem_take_iff_countP (serviceOrder_pairwise h), serviceOrder_perm.mem_iff,
    serviceOrder_perm.countP_eq, rank]

theorem served_nodup {q : κ → R} {ks : List κ} (h : ks.Nodup) {n : ℕ} :
    (served q ks n).Nodup :=
  (serviceOrder_perm.nodup_iff.mpr h).sublist (take_sublist n _)

theorem served_subset {q : κ → R} {ks : List κ} {n : ℕ} : served q ks n ⊆ ks :=
  fun _ hk => serviceOrder_perm.subset (mem_of_mem_take hk)

theorem length_served {q : κ → R} {ks : List κ} {n : ℕ} (h : n ≤ ks.length) :
    (served q ks n).length = n := by
  rw [served, length_take, serviceOrder_perm.length_eq]
  omega

theorem rank_perm {q : κ → R} {ks ks' : List κ} (h : ks ~ ks') {k : κ} :
    rank q ks k = rank q ks' k :=
  h.countP_eq _

/-! ## The units that are left over -/

variable [IsStrictOrderedRing R]

/-- What remains of `N` units once every claimant has the floor of its quota. -/
def leftover (q : κ → R) (ks : List κ) (N : ℤ) : ℤ :=
  N - (ks.map fun k => ⌊q k⌋).sum

theorem sum_eq_floor_add_fract (q : κ → R) (ks : List κ) :
    (ks.map q).sum = ((ks.map fun k => ⌊q k⌋).sum : ℤ) + (ks.map fun k => Int.fract (q k)).sum := by
  induction ks with
  | nil => simp
  | cons a t ih =>
      simp only [map_cons, sum_cons, ih, Int.cast_add]
      have := Int.floor_add_fract (q a)
      linarith

theorem leftover_eq_sum_fract {q : κ → R} {ks : List κ} {N : ℤ} (h : (ks.map q).sum = N) :
    ((leftover q ks N : ℤ) : R) = (ks.map fun k => Int.fract (q k)).sum := by
  have := sum_eq_floor_add_fract q ks
  rw [leftover, Int.cast_sub]
  linarith

theorem leftover_nonneg {q : κ → R} {ks : List κ} {N : ℤ} (h : (ks.map q).sum = N) :
    0 ≤ leftover q ks N := by
  have hfract : (0 : R) ≤ (ks.map fun k => Int.fract (q k)).sum :=
    sum_nonneg fun x hx => by
      obtain ⟨k, _, rfl⟩ := mem_map.mp hx
      exact Int.fract_nonneg _
  rw [← leftover_eq_sum_fract h] at hfract
  exact_mod_cast hfract

/-- The fractional parts of a list add up to at most the number of positive
ones, and to strictly less when there is a positive one at all. -/
theorem sum_fract_le_countP (q : κ → R) (ks : List κ) :
    (ks.map fun k => Int.fract (q k)).sum ≤ (ks.countP fun k => 0 < Int.fract (q k) : ℕ) := by
  induction ks with
  | nil => simp
  | cons a t ih =>
      simp only [map_cons, sum_cons, countP_cons, Nat.cast_add]
      by_cases ha : 0 < Int.fract (q a)
      · simp only [ha, decide_true, if_true, Nat.cast_one]
        have := (Int.fract_lt_one (q a)).le
        linarith
      · have h0 : Int.fract (q a) = 0 := le_antisymm (not_lt.mp ha) (Int.fract_nonneg _)
        simp [h0, ih]

theorem leftover_le_countP {q : κ → R} {ks : List κ} {N : ℤ} (h : (ks.map q).sum = N) :
    leftover q ks N ≤ (ks.countP fun k => 0 < Int.fract (q k) : ℕ) := by
  have hle := sum_fract_le_countP q ks
  rw [← leftover_eq_sum_fract h] at hle
  exact_mod_cast hle

/-- Only a claimant with a positive fractional part can be served: the ones with
a positive part all come before the ones without, and there are enough of them. -/
theorem fract_pos_of_rank_lt {q : κ → R} {ks : List κ} {N : ℤ} (h : (ks.map q).sum = N)
    {k : κ} (hk : (rank q ks k : ℤ) < leftover q ks N) : 0 < Int.fract (q k) := by
  by_contra hpos
  have h0 : Int.fract (q k) = 0 := le_antisymm (not_lt.mp hpos) (Int.fract_nonneg _)
  have hle : ks.countP (fun j => decide (0 < Int.fract (q j))) ≤ rank q ks k :=
    countP_mono_left fun j _ hj => by
      have hj : 0 < Int.fract (q j) := by simpa using hj
      simpa [Before, h0] using Or.inl hj
  have := leftover_le_countP h
  omega

/-! ## The shares -/

/-- The units that go to claimant `k`: the floor of its quota, and one more if
it is among the first to be served. -/
def share (q : κ → R) (ks : List κ) (N : ℤ) (k : κ) : ℤ :=
  ⌊q k⌋ + if k ∈ served q ks (leftover q ks N).toNat then 1 else 0

theorem share_eq_rank {q : κ → R} {ks : List κ} (hnd : ks.Nodup) {N : ℤ} {k : κ} (hk : k ∈ ks) :
    share q ks N k = ⌊q k⌋ + if (rank q ks k : ℤ) < leftover q ks N then 1 else 0 := by
  rw [share]
  congr 1
  have : k ∈ served q ks (leftover q ks N).toNat ↔ (rank q ks k : ℤ) < leftover q ks N := by
    rw [mem_served_iff hnd, and_iff_right hk]
    omega
  simp only [this]

theorem sum_ite_mem {l ks : List κ} (hks : ks.Nodup) (hl : l.Nodup) (hsub : l ⊆ ks) :
    (ks.map fun k => if k ∈ l then (1 : ℤ) else 0).sum = l.length := by
  have hfilter : ks.filter (· ∈ l) ~ l :=
    (perm_ext_iff_of_nodup (hks.filter _) hl).mpr fun a => by
      simpa using fun h => hsub h
  rw [← hfilter.length_eq, ← countP_eq_length_filter]
  clear hks hl hsub hfilter
  induction ks with
  | nil => simp
  | cons a t ih =>
      simp only [map_cons, sum_cons, countP_cons, ih]
      by_cases ha : a ∈ l <;> simp [ha, add_comm]

/-- **Nothing is lost and nothing is invented.** -/
theorem sum_share {q : κ → R} {ks : List κ} (hnd : ks.Nodup) {N : ℤ} (h : (ks.map q).sum = N) :
    (ks.map (share q ks N)).sum = N := by
  have hcount : ks.countP (fun k => decide (0 < Int.fract (q k))) ≤ ks.length := countP_le_length
  have hle := leftover_le_countP h
  have h0 := leftover_nonneg h
  have hlen : (served q ks (leftover q ks N).toNat).length = (leftover q ks N).toNat :=
    length_served (by omega)
  have hsplit : (ks.map (share q ks N)).sum
      = (ks.map fun k => ⌊q k⌋).sum
        + (ks.map fun k =>
            if k ∈ served q ks (leftover q ks N).toNat then (1 : ℤ) else 0).sum :=
    sum_map_add
  rw [hsplit, sum_ite_mem hnd (served_nodup hnd) served_subset, hlen]
  have : leftover q ks N = N - (ks.map fun k => ⌊q k⌋).sum := rfl
  omega

theorem floor_le_share {q : κ → R} {ks : List κ} {N : ℤ} {k : κ} : ⌊q k⌋ ≤ share q ks N k := by
  rw [share]
  split <;> omega

/-- A share is the floor or the ceiling of the quota, never further away. -/
theorem share_le_ceil {q : κ → R} {ks : List κ} (hnd : ks.Nodup) {N : ℤ}
    (h : (ks.map q).sum = N) {k : κ} (hk : k ∈ ks) : share q ks N k ≤ ⌈q k⌉ := by
  rw [share_eq_rank hnd hk]
  split
  next hlt =>
    have hpos := fract_pos_of_rank_lt h hlt
    have hfloor : (⌊q k⌋ : R) < q k := by
      have := Int.floor_add_fract (q k)
      linarith
    have := Int.lt_ceil.mpr hfloor
    omega
  next => simpa using Int.floor_le_ceil (q k)

/-- A claimant with a whole quota receives exactly that quota. -/
theorem share_eq_of_fract_eq_zero {q : κ → R} {ks : List κ} (hnd : ks.Nodup) {N : ℤ}
    (h : (ks.map q).sum = N) {k : κ} (hk : k ∈ ks) (h0 : Int.fract (q k) = 0) :
    share q ks N k = ⌊q k⌋ := by
  have hle := share_le_ceil hnd h hk
  have hge : ⌊q k⌋ ≤ share q ks N k := floor_le_share
  have hq : q k = (⌊q k⌋ : ℤ) := by
    have := Int.floor_add_fract (q k)
    rw [h0, add_zero] at this
    exact this.symm
  have hceil : ⌈q k⌉ = ⌊q k⌋ := by
    conv_lhs => rw [hq, Int.ceil_intCast]
  omega

/-- Claimants with equal quotas differ by at most one unit. -/
theorem share_le_share_add_one {q : κ → R} {N : ℤ} {a b : κ} (h : q a = q b) (ks : List κ) :
    share q ks N a ≤ share q ks N b + 1 := by
  rw [share, share, h]
  split <;> split <;> omega

/-- The shares do not depend on the order in which the claimants are listed. -/
theorem share_perm {q : κ → R} {ks ks' : List κ} (hnd : ks.Nodup) (hp : ks ~ ks') {N : ℤ}
    {k : κ} (hk : k ∈ ks) : share q ks N k = share q ks' N k := by
  have hleft : leftover q ks N = leftover q ks' N := by
    simp only [leftover, (hp.map _).sum_eq]
  rw [share_eq_rank hnd hk, share_eq_rank (hp.nodup_iff.mp hnd) (hp.mem_iff.mp hk), rank_perm hp,
    hleft]

/-- The extra units go to the largest fractional parts, ties to the smaller
claimant: whoever is served comes before whoever is not. -/
theorem before_of_served {q : κ → R} {ks : List κ} (hnd : ks.Nodup) {N : ℤ} {a b : κ}
    (ha : a ∈ ks) (hb : b ∈ ks) (hserved : share q ks N a = ⌊q a⌋ + 1)
    (hnot : share q ks N b = ⌊q b⌋) : Before q a b := by
  rw [share_eq_rank hnd ha] at hserved
  rw [share_eq_rank hnd hb] at hnot
  have hlt : (rank q ks a : ℤ) < leftover q ks N := by
    by_contra hge
    rw [if_neg hge] at hserved
    omega
  have hge : ¬ (rank q ks b : ℤ) < leftover q ks N := by
    intro hlt
    rw [if_pos hlt] at hnot
    omega
  rcases eq_or_ne a b with rfl | hne
  · exact absurd hlt hge
  · refine (before_total hne).resolve_right fun hba => hge ?_
    have : rank q ks b ≤ rank q ks a := countP_mono_left fun j _ hj => by
      have hj : Before q j b := by simpa using hj
      simpa using before_trans hj hba
    omega

/-! ## Monotonicity in one claimant's quota

One quota grows at the expense of the others.  A claimant that overtakes `k`
although its own quota shrank must have wrapped: its floor went down by at least
one, and that unit is among those left over.  So `k` gains at least as many
left-over units ahead of it as it gains competitors. -/

theorem countP_le_add_sum {p p' : κ → Bool} {w : κ → ℤ} (ks : List κ)
    (hw : ∀ j ∈ ks, 0 ≤ w j) (h : ∀ j ∈ ks, p' j = true → p j = true ∨ 1 ≤ w j) :
    (ks.countP p' : ℤ) ≤ ks.countP p + (ks.map w).sum := by
  induction ks with
  | nil => simp
  | cons a t ih =>
      have ih := ih (fun j hj => hw j (mem_cons_of_mem _ hj))
        fun j hj => h j (mem_cons_of_mem _ hj)
      have hwa := hw a mem_cons_self
      have ha := h a mem_cons_self
      simp only [countP_cons, map_cons, sum_cons, Nat.cast_add]
      cases hp' : p' a <;> cases hp : p a <;> simp_all <;> omega

theorem share_mono {q q' : κ → R} {ks : List κ} (hnd : ks.Nodup) {N : ℤ}
    {k : κ} (hk : k ∈ ks) (hup : q k ≤ q' k) (hdown : ∀ j ∈ ks, j ≠ k → q' j ≤ q j) :
    share q ks N k ≤ share q' ks N k := by
  have hfloor : ⌊q k⌋ ≤ ⌊q' k⌋ := Int.floor_mono hup
  rcases hfloor.lt_or_eq with hlt | heq
  · have : ⌊q' k⌋ ≤ share q' ks N k := floor_le_share
    have : share q ks N k ≤ ⌊q k⌋ + 1 := by
      rw [share]
      split <;> omega
    omega
  have hfract : Int.fract (q k) ≤ Int.fract (q' k) := by
    have h := Int.floor_add_fract (q k)
    have h' := Int.floor_add_fract (q' k)
    rw [heq] at h
    linarith
  -- The whole units the other claimants lose when their quotas shrink.
  have hlose : ∀ j ∈ ks, 0 ≤ ⌊q j⌋ - ⌊q' j⌋ := fun j hj => by
    rcases eq_or_ne j k with rfl | hne
    · omega
    · exact Int.sub_nonneg.mpr (Int.floor_mono (hdown j hj hne))
  have hovertake : ∀ j ∈ ks, decide (Before q' j k) = true →
      decide (Before q j k) = true ∨ 1 ≤ ⌊q j⌋ - ⌊q' j⌋ := by
    intro j hj hbefore
    have hbefore : Before q' j k := by simpa using hbefore
    have hne : j ≠ k := by
      rintro rfl
      exact before_irrefl hbefore
    by_cases hwrap : 1 ≤ ⌊q j⌋ - ⌊q' j⌋
    · exact Or.inr hwrap
    have hsame : ⌊q j⌋ = ⌊q' j⌋ := by
      have := hlose j hj
      omega
    have hj' : Int.fract (q' j) ≤ Int.fract (q j) := by
      have h := Int.floor_add_fract (q j)
      have h' := Int.floor_add_fract (q' j)
      have := hdown j hj hne
      rw [hsame] at h
      linarith
    refine Or.inl (decide_eq_true ?_)
    rcases hbefore with hlt | ⟨heq', hname⟩
    · exact Or.inl (by linarith)
    · rcases hj'.lt_or_eq with hlt | heq''
      · exact Or.inl (by linarith)
      · rcases hfract.lt_or_eq with hlt | heq'''
        · exact Or.inl (by linarith)
        · exact Or.inr ⟨by linarith, hname⟩
  have hrank : (rank q' ks k : ℤ) ≤ rank q ks k + (ks.map fun j => ⌊q j⌋ - ⌊q' j⌋).sum :=
    countP_le_add_sum ks hlose hovertake
  have hleft : leftover q' ks N
      = leftover q ks N + (ks.map fun j => ⌊q j⌋ - ⌊q' j⌋).sum := by
    have hsum : (ks.map fun j => ⌊q j⌋).sum
        = (ks.map fun j => ⌊q' j⌋).sum + (ks.map fun j => ⌊q j⌋ - ⌊q' j⌋).sum := by
      rw [← sum_map_add]
      simp
    rw [leftover, leftover]
    omega
  rw [share_eq_rank hnd hk, share_eq_rank hnd hk, heq]
  split <;> split <;> omega

end Basis
