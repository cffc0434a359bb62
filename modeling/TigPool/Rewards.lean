/-
# `TigPool.Rewards` — what `allocate_rewards` promises a member

The abstract rule is `Allocation`: which pairs of a fee and shares divide a pot
among credits as the settlement rule says.  It is stated without an algorithm,
over the exact quotas; `allocateRewards` is shown to produce such a division for
every pot and every map of credits, and the four properties a member would ask
for on top of it — that the order of the map, the unit of credit, another
member's equal claim and one's own larger credit do what they should — follow
from the general theory of largest remainders.
-/
import TigPool.Money
import Mathlib.Algebra.BigOperators.Ring.List
import Mathlib.Tactic.FieldSimp
import Mathlib.Tactic.Ring
import Mathlib.Tactic.Positivity
import Mathlib.Tactic.GCongr

namespace TigPool

open Basis

/-- All the credit in a map. -/
def totalCredit (credits : Table String ℚ) : ℚ :=
  credits.total fun _ value => value

/-- What `allocate_rewards` expects: nonempty member IDs and nonnegative credit. -/
structure ValidCredits (credits : Table String ℚ) : Prop where
  names : ∀ {key value}, credits.lookup key = some value → key ≠ ""
  nonneg : ∀ {key value}, credits.lookup key = some value → 0 ≤ value

/-- A member's exact part of the pot, after the fee. -/
def exactQuota (pot fee : ℤ) (credits : Table String ℚ) (credit : ℚ) : ℚ :=
  (pot - fee : ℤ) * credit / totalCredit credits

/-- `fee` and `shares` divide `pot` among `credits` by the settlement rule. -/
structure Allocation (pot : ℤ) (credits : Table String ℚ) (fee : ℤ)
    (shares : Table String ℤ) : Prop where
  /-- Every member of the map has a share, nobody else. -/
  members : shares.keys = credits.keys
  /-- Fee and shares are the whole pot. -/
  conserves : fee + shares.total (fun _ share => share) = pot
  /-- Without credit the fee is the pot. -/
  idle : totalCredit credits = 0 →
    fee = pot ∧ ∀ {key share}, shares.lookup key = some share → share = 0
  /-- The fee is five percent, rounded down. -/
  feeRate : totalCredit credits ≠ 0 → fee = ⌊5 * (pot : ℚ) / 100⌋
  /-- A share is the floor or the ceiling of the exact quota. -/
  rounds : totalCredit credits ≠ 0 → ∀ {key credit share},
    credits.lookup key = some credit → shares.lookup key = some share →
    share = ⌊exactQuota pot fee credits credit⌋ ∨ share = ⌈exactQuota pot fee credits credit⌉
  /-- No credit, no share. -/
  zero : ∀ {key share}, credits.lookup key = some 0 → shares.lookup key = some share → share = 0
  /-- Whoever has an extra unit has a larger fractional part than whoever has
  none or, at equal parts, the smaller ID. -/
  extra : totalCredit credits ≠ 0 → ∀ {a b x y s t},
    credits.lookup a = some x → credits.lookup b = some y →
    shares.lookup a = some s → shares.lookup b = some t →
    s = ⌊exactQuota pot fee credits x⌋ + 1 → t = ⌊exactQuota pot fee credits y⌋ →
    Int.fract (exactQuota pot fee credits y) < Int.fract (exactQuota pot fee credits x) ∨
      (Int.fract (exactQuota pot fee credits x) = Int.fract (exactQuota pot fee credits y) ∧ a < b)

/-! ## `allocateRewards` in terms of shares -/

theorem ValidCredits.total_nonneg {credits : Table String ℚ} (h : ValidCredits credits) :
    0 ≤ totalCredit credits :=
  Table.total_nonneg fun _ _ hk => h.nonneg hk

theorem validCredits_iff {credits : Table String ℚ} :
    ValidCredits credits ↔ credits.any (fun key _ => key = "") = false ∧
      credits.any (fun _ value => value < 0) = false := by
  constructor
  · intro h
    exact ⟨Table.any_eq_false.mpr fun _ _ hk => by simpa using h.names hk,
      Table.any_eq_false.mpr fun _ _ hk => by simpa using h.nonneg hk⟩
  · rintro ⟨hnames, hnonneg⟩
    exact ⟨fun hk => by simpa using Table.any_eq_false.mp hnames _ _ hk,
      fun hk => by simpa using Table.any_eq_false.mp hnonneg _ _ hk⟩

/-- The fee and the shares that come out. -/
def rewardFee (pot : ℤ) (credits : Table String ℚ) : ℤ :=
  if totalCredit credits = 0 then pot else pot * 5 / 100

def rewardShare (pot : ℤ) (credits : Table String ℚ) (key : String) : ℤ :=
  if totalCredit credits = 0 then 0
  else share (exactAllocation pot (pot * 5 / 100) credits) credits.keys (pot - pot * 5 / 100) key

theorem allocateRewards_eq {pot : ℤ} {credits : Table String ℚ} (hpot : 0 ≤ pot)
    (h : ValidCredits credits) :
    allocateRewards pot credits
      = .ok (rewardFee pot credits, credits.mapVals fun key _ => rewardShare pot credits key) := by
  have hunits : units pot = .ok pot.toNat := by
    rw [units_eq_ok]
    simp [hpot]
  obtain ⟨hnames, hnonneg⟩ := validCredits_iff.mp h
  simp only [allocateRewards, hunits, hnames, hnonneg, require, if_true, bind, Except.bind]
  by_cases h0 : totalCredit credits = 0
  · have h0' : (credits.total fun _ value => value) = 0 := h0
    simp [h0', rewardFee, rewardShare, h0, pure, Except.pure]
  · have h0' : ¬ (credits.total fun _ value => value) = 0 := h0
    simp only [h0', if_false, rewardFee, rewardShare, h0, pure, Except.pure]
    congr 2
    -- The loop over `order[:remaining]` adds its unit to the floors.
    have hleft : pot - pot * 5 / 100 - (credits.mapVals fun key _ =>
          ⌊exactAllocation pot (pot * 5 / 100) credits key⌋).total (fun _ value => value)
        = leftover (exactAllocation pot (pot * 5 / 100) credits) credits.keys
            (pot - pot * 5 / 100) := by
      rw [leftover, Table.total_mapVals, Table.sum_keys_eq_total fun _ _ _ => rfl]
    rw [hleft]
    apply AList.ext
    simp only [Table.mapVals, share, served, List.map_map, Function.comp_def]
    congr

theorem quota_of_lookup {pot fee : ℤ} {credits : Table String ℚ} {key : String} {credit : ℚ}
    (h : credits.lookup key = some credit) :
    exactAllocation pot fee credits key = exactQuota pot fee credits credit := by
  simp [exactAllocation, exactQuota, h, totalCredit]

theorem sum_quota {pot fee : ℤ} {credits : Table String ℚ} (h0 : totalCredit credits ≠ 0) :
    (credits.keys.map (exactAllocation pot fee credits)).sum = ((pot - fee : ℤ) : ℚ) := by
  rw [Table.sum_keys_eq_total (f := fun _ value => exactQuota pot fee credits value)
    fun _ _ hk => quota_of_lookup hk]
  have hlin : ∀ value, exactQuota pot fee credits value
      = ((pot - fee : ℤ) : ℚ) / totalCredit credits * value := fun value => by
    rw [exactQuota]
    ring
  simp only [hlin, Table.total, List.sum_map_mul_left]
  exact div_mul_cancel₀ _ h0

theorem lookup_shares {pot : ℤ} {credits : Table String ℚ} {key : String} {s : ℤ}
    (h : (credits.mapVals fun key _ => rewardShare pot credits key).lookup key = some s) :
    key ∈ credits.keys ∧ s = rewardShare pot credits key := by
  rw [Table.lookup_mapVals] at h
  obtain ⟨credit, hk, hs⟩ := Option.map_eq_some_iff.mp h
  exact ⟨AList.mem_keys.mp (AList.lookup_isSome.mp (by simp [hk])), hs.symm⟩

theorem mem_keys_of_lookup {credits : Table String ℚ} {key : String} {credit : ℚ}
    (h : credits.lookup key = some credit) : key ∈ credits.keys :=
  AList.mem_keys.mp (AList.lookup_isSome.mp (by simp [h]))

/-! ## The rule holds -/

theorem allocation_of_valid {pot : ℤ} {credits : Table String ℚ} :
    Allocation pot credits (rewardFee pot credits)
      (credits.mapVals fun key _ => rewardShare pot credits key) where
  members := Table.keys_mapVals
  conserves := by
    rw [Table.total_mapVals, ← Table.sum_keys_eq_total (g := rewardShare pot credits)
      fun _ _ _ => rfl]
    by_cases h0 : totalCredit credits = 0
    · have hzero : rewardShare pot credits = fun _ => 0 := by
        funext key
        rw [rewardShare, if_pos h0]
      simp [rewardFee, hzero, h0]
    · have hshare : rewardShare pot credits = share (exactAllocation pot (pot * 5 / 100) credits)
          credits.keys (pot - pot * 5 / 100) := by
        funext key
        rw [rewardShare, if_neg h0]
      rw [hshare, sum_share credits.keys_nodup (sum_quota h0), rewardFee, if_neg h0]
      omega
  idle h0 := by
    refine ⟨by simp [rewardFee, h0], fun hs => ?_⟩
    rw [(lookup_shares hs).2, rewardShare, if_pos h0]
  feeRate h0 := by
    rw [rewardFee, if_neg h0, mul_comm, show (5 * (pot : ℚ) / 100) = ((5 * pot : ℤ) : ℚ) / (100 : ℕ) by
      push_cast; rfl, Rat.floor_intCast_div_natCast]
    rfl
  rounds h0 key credit s hk hs := by
    obtain ⟨hmem, rfl⟩ := lookup_shares hs
    simp only [rewardFee, rewardShare, h0, if_false]
    rw [← quota_of_lookup hk]
    have hsum : (credits.keys.map (exactAllocation pot (pot * 5 / 100) credits)).sum
        = ((pot - pot * 5 / 100 : ℤ) : ℚ) := sum_quota h0
    have hle := share_le_ceil credits.keys_nodup hsum hmem
    have hge : ⌊exactAllocation pot (pot * 5 / 100) credits key⌋ ≤
        share (exactAllocation pot (pot * 5 / 100) credits) credits.keys (pot - pot * 5 / 100) key :=
      floor_le_share
    have := Int.ceil_le_floor_add_one (exactAllocation pot (pot * 5 / 100) credits key)
    omega
  zero := by
    intro key s hk hs
    obtain ⟨hmem, rfl⟩ := lookup_shares hs
    by_cases h0 : totalCredit credits = 0
    · simp [rewardShare, h0]
    · have hq : exactAllocation pot (pot * 5 / 100) credits key = 0 := by
        simp [exactAllocation, hk]
      rw [rewardShare, if_neg h0, share_eq_of_fract_eq_zero credits.keys_nodup (sum_quota h0) hmem
        (by simp [hq]), hq, Int.floor_zero]
  extra h0 a b x y s t ha hb hs ht hextra hnone := by
    obtain ⟨hamem, rfl⟩ := lookup_shares hs
    obtain ⟨hbmem, rfl⟩ := lookup_shares ht
    simp only [rewardFee, rewardShare, h0, if_false] at hextra hnone ⊢
    rw [← quota_of_lookup ha] at hextra ⊢
    rw [← quota_of_lookup hb] at hnone ⊢
    exact before_of_served credits.keys_nodup hamem hbmem hextra hnone

/-! ## The order of the map and the unit of credit do not matter -/

theorem rewardFee_congr {pot : ℤ} {credits credits' : Table String ℚ}
    (h : credits'.entries.Perm credits.entries) :
    rewardFee pot credits' = rewardFee pot credits := by
  rw [rewardFee, rewardFee, totalCredit, totalCredit, Table.total_perm h]

theorem rewardShare_congr {pot : ℤ} {credits credits' : Table String ℚ}
    (h : credits'.entries.Perm credits.entries) {key : String} (hk : key ∈ credits.keys) :
    rewardShare pot credits' key = rewardShare pot credits key := by
  have hkeys : credits.keys.Perm credits'.keys := h.symm.map _
  have htotal : totalCredit credits' = totalCredit credits := Table.total_perm h
  have hq : ∀ fee, exactAllocation pot fee credits' = exactAllocation pot fee credits := by
    intro fee
    funext k
    rw [exactAllocation, exactAllocation, AList.perm_lookup h, Table.total_perm h]
  rw [rewardShare, rewardShare, htotal, hq, share_perm credits.keys_nodup hkeys hk]

theorem ValidCredits.perm {credits credits' : Table String ℚ} (h : ValidCredits credits)
    (hp : credits'.entries.Perm credits.entries) : ValidCredits credits' where
  names hk := h.names (AList.perm_lookup hp ▸ hk)
  nonneg hk := h.nonneg (AList.perm_lookup hp ▸ hk)

theorem shares_perm {pot : ℤ} {credits credits' : Table String ℚ}
    (h : credits'.entries.Perm credits.entries) :
    (credits'.mapVals fun key _ => rewardShare pot credits' key).entries.Perm
      (credits.mapVals fun key _ => rewardShare pot credits key).entries := by
  have hsame : (credits'.mapVals fun key _ => rewardShare pot credits' key)
      = credits'.mapVals fun key _ => rewardShare pot credits key := by
    refine Table.mapVals_congr fun key value hk => rewardShare_congr h ?_
    exact mem_keys_of_lookup (AList.perm_lookup h ▸ hk)
  rw [hsame]
  exact h.map _

theorem total_scale {credits : Table String ℚ} {c : ℚ} :
    totalCredit (credits.mapVals fun _ value => c * value) = c * totalCredit credits := by
  rw [totalCredit, totalCredit, Table.total_mapVals, Table.total, Table.total,
    List.sum_map_mul_left]

theorem exactAllocation_scale {pot fee : ℤ} {credits : Table String ℚ} {c : ℚ} (hc : 0 < c) :
    exactAllocation pot fee (credits.mapVals fun _ value => c * value)
      = exactAllocation pot fee credits := by
  funext key
  have htotal : ((credits.mapVals fun _ value => c * value).total fun _ value => value)
      = c * credits.total fun _ value => value := total_scale
  have hlookup : ((credits.mapVals fun _ value => c * value).lookup key).getD 0
      = c * (credits.lookup key).getD 0 := by
    rw [Table.lookup_mapVals]
    cases credits.lookup key <;> simp
  rw [exactAllocation, exactAllocation, htotal, hlookup, mul_left_comm,
    mul_div_mul_left _ _ hc.ne']

theorem rewardShare_scale {pot : ℤ} {credits : Table String ℚ} {c : ℚ} (hc : 0 < c)
    {key : String} : rewardShare pot (credits.mapVals fun _ value => c * value) key
      = rewardShare pot credits key := by
  rw [rewardShare, rewardShare, total_scale, exactAllocation_scale hc, Table.keys_mapVals]
  simp only [mul_eq_zero, hc.ne', false_or]

theorem allocateRewards_scale {pot : ℤ} {credits : Table String ℚ} (hpot : 0 ≤ pot)
    (h : ValidCredits credits) {c : ℚ} (hc : 0 < c) :
    allocateRewards pot (credits.mapVals fun _ value => c * value)
      = allocateRewards pot credits := by
  have hvalid : ValidCredits (credits.mapVals fun _ value => c * value) := by
    constructor <;> intro key value hk <;> rw [Table.lookup_mapVals] at hk <;>
      obtain ⟨x, hx, rfl⟩ := Option.map_eq_some_iff.mp hk
    · exact h.names hx
    · exact mul_nonneg hc.le (h.nonneg hx)
  rw [allocateRewards_eq hpot h, allocateRewards_eq hpot hvalid]
  have hfee : rewardFee pot (credits.mapVals fun _ value => c * value) = rewardFee pot credits := by
    rw [rewardFee, rewardFee, total_scale]
    simp only [mul_eq_zero, hc.ne', false_or]
  rw [hfee, Table.mapVals_mapVals]
  simp only [rewardShare_scale hc]

/-! ## A larger credit never costs its member a unit -/

theorem rewardShare_nonneg {pot : ℤ} {credits : Table String ℚ} (hpot : 0 ≤ pot)
    (h : ValidCredits credits) {key : String} {credit : ℚ}
    (hk : credits.lookup key = some credit) : 0 ≤ rewardShare pot credits key := by
  rw [rewardShare]
  split
  · exact le_rfl
  · refine le_trans (Int.floor_nonneg.mpr ?_) floor_le_share
    have hnet : (0 : ℚ) ≤ ((pot - pot * 5 / 100 : ℤ) : ℚ) := by
      exact_mod_cast (by omega : 0 ≤ pot - pot * 5 / 100)
    rw [quota_of_lookup hk, exactQuota]
    exact div_nonneg (mul_nonneg hnet (h.nonneg hk)) h.total_nonneg

theorem rewardFee_nonneg {pot : ℤ} {credits : Table String ℚ} (hpot : 0 ≤ pot) :
    0 ≤ rewardFee pot credits := by
  rw [rewardFee]
  split
  · exact hpot
  · exact Int.ediv_nonneg (mul_nonneg hpot (by decide)) (by decide)

theorem total_raise {credits : Table String ℚ} {member : String} {x y : ℚ}
    (hx : credits.lookup member = some x) :
    totalCredit (AList.insert member y credits) = totalCredit credits + (y - x) :=
  Table.total_insert_of_lookup hx

theorem credit_le_total {credits : Table String ℚ} (h : ValidCredits credits) {member : String}
    {x : ℚ} (hx : credits.lookup member = some x) : x ≤ totalCredit credits := by
  rw [totalCredit, Table.total_erase_add hx, le_add_iff_nonneg_right]
  refine Table.total_nonneg fun k a hk => ?_
  by_cases hkm : k = member
  · rw [hkm, AList.lookup_erase] at hk
    exact absurd hk (by simp)
  · rw [AList.lookup_erase_ne hkm] at hk
    exact h.nonneg hk

theorem rewardShare_raise {pot : ℤ} {credits : Table String ℚ} (hpot : 0 ≤ pot)
    (h : ValidCredits credits) {member : String} {x y : ℚ}
    (hx : credits.lookup member = some x) (hxy : x ≤ y)
    (hvalid : ValidCredits (AList.insert member y credits)) :
    rewardShare pot credits member ≤ rewardShare pot (AList.insert member y credits) member := by
  have hraised : (AList.insert member y credits).lookup member = some y :=
    AList.lookup_insert credits
  by_cases h0 : totalCredit credits = 0
  · rw [rewardShare, if_pos h0]
    exact rewardShare_nonneg hpot hvalid hraised
  have hpos : 0 < totalCredit credits := lt_of_le_of_ne h.total_nonneg (Ne.symm h0)
  have hpos' : 0 < totalCredit (AList.insert member y credits) := by
    rw [total_raise hx]
    linarith
  have hnet : (0 : ℚ) ≤ ((pot - pot * 5 / 100 : ℤ) : ℚ) := by
    exact_mod_cast (by omega : 0 ≤ pot - pot * 5 / 100)
  have hmem : member ∈ credits.keys := mem_keys_of_lookup hx
  have hkeys : (AList.insert member y credits).keys.Perm credits.keys := by
    rw [AList.keys_insert]
    exact (List.perm_cons_erase hmem).symm
  rw [rewardShare, if_neg h0, rewardShare, if_neg hpos'.ne',
    share_perm (AList.keys_nodup _) hkeys (hkeys.symm.subset hmem)]
  refine share_mono credits.keys_nodup hmem ?_ fun j hj hne => ?_
  · rw [quota_of_lookup hx, quota_of_lookup hraised, exactQuota, exactQuota,
      div_le_div_iff₀ hpos hpos', total_raise hx, mul_assoc, mul_assoc]
    refine mul_le_mul_of_nonneg_left ?_ hnet
    nlinarith [credit_le_total h hx]
  · obtain ⟨c, hc⟩ := Option.isSome_iff_exists.mp (AList.lookup_isSome.mpr (AList.mem_keys.mpr hj))
    have hc' : (AList.insert member y credits).lookup j = some c := by
      rw [AList.lookup_insert_ne hne, hc]
    rw [quota_of_lookup hc, quota_of_lookup hc', exactQuota, exactQuota]
    refine div_le_div_of_nonneg_left (mul_nonneg hnet (h.nonneg hc)) hpos ?_
    rw [total_raise hx]
    linarith

/-! ## The whole promise -/

/-- **Exact reward allocation.**  For every pot and every map of credits the
rule returns an `Allocation`; it is the same for every order of the map and
every unit of credit, it treats equal credits alike up to one unit, and a member
whose credit alone is raised does not receive less. -/
theorem allocateRewards_exact {pot : ℤ} {credits : Table String ℚ} (hpot : 0 ≤ pot)
    (hvalid : ValidCredits credits) :
    ∃ fee shares, allocateRewards pot credits = .ok (fee, shares) ∧
      Allocation pot credits fee shares ∧
      (∀ credits' : Table String ℚ, credits'.entries.Perm credits.entries →
        ∃ shares', allocateRewards pot credits' = .ok (fee, shares') ∧
          shares'.entries.Perm shares.entries) ∧
      (∀ c : ℚ, 0 < c →
        allocateRewards pot (credits.mapVals fun _ value => c * value) = .ok (fee, shares)) ∧
      (∀ a b x s t, credits.lookup a = some x → credits.lookup b = some x →
        shares.lookup a = some s → shares.lookup b = some t → |s - t| ≤ 1) ∧
      (∀ (member : String) (x y : ℚ) (credits' : Table String ℚ),
        credits.lookup member = some x → x ≤ y → credits'.lookup member = some y →
        (∀ j, j ≠ member → credits'.lookup j = credits.lookup j) →
        ∃ fee' shares', allocateRewards pot credits' = .ok (fee', shares') ∧
          ∀ s s', shares.lookup member = some s → shares'.lookup member = some s' → s ≤ s') := by
  refine ⟨_, _, allocateRewards_eq hpot hvalid, allocation_of_valid, ?_, ?_, ?_, ?_⟩
  · intro credits' hp
    have hfee : rewardFee pot credits' = rewardFee pot credits := rewardFee_congr hp
    exact ⟨_, hfee ▸ allocateRewards_eq hpot (hvalid.perm hp), shares_perm hp⟩
  · intro c hc
    rw [allocateRewards_scale hpot hvalid hc, allocateRewards_eq hpot hvalid]
  · intro a b x s t ha hb hs ht
    obtain ⟨_, rfl⟩ := lookup_shares hs
    obtain ⟨_, rfl⟩ := lookup_shares ht
    rw [rewardShare, rewardShare]
    split
    · simp
    · have hq : exactAllocation pot (pot * 5 / 100) credits a
          = exactAllocation pot (pot * 5 / 100) credits b := by
        rw [quota_of_lookup ha, quota_of_lookup hb]
      have hst := share_le_share_add_one hq (N := pot - pot * 5 / 100)
      have hts := share_le_share_add_one hq.symm (N := pot - pot * 5 / 100)
      exact abs_le.mpr ⟨by linarith [hts credits.keys], by linarith [hst credits.keys]⟩
  · intro member x y credits' hx hxy hy hothers
    have hp : credits'.entries.Perm (AList.insert member y credits).entries :=
      Table.entries_perm_of_lookup_eq fun k => by
        rw [Table.lookup_insert_eq]
        split
        next hk => rw [hk, hy]
        next hk => exact hothers k hk
    have hraised : ValidCredits (AList.insert member y credits) := by
      constructor <;> intro key value hk <;> rw [Table.lookup_insert_eq] at hk <;> split at hk
      next h => exact h ▸ hvalid.names hx
      next => exact hvalid.names hk
      next => exact Option.some.inj hk ▸ (hvalid.nonneg hx).trans hxy
      next => exact hvalid.nonneg hk
    refine ⟨_, _, allocateRewards_eq hpot (hraised.perm hp), fun s s' hs hs' => ?_⟩
    obtain ⟨_, rfl⟩ := lookup_shares hs
    obtain ⟨hmem, rfl⟩ := lookup_shares hs'
    rw [rewardShare_congr hp ((hp.map Sigma.fst).subset hmem)]
    exact rewardShare_raise hpot hvalid hx hxy hraised

theorem allocateRewards_exact_bob_alice :
    ∃ fee shares,
      allocateRewards 100 (AList.insert "bob" (6 / 5) (AList.insert "alice" (9 / 5) ∅))
        = .ok (fee, shares) ∧
      Allocation 100 (AList.insert "bob" (6 / 5) (AList.insert "alice" (9 / 5) ∅)) fee shares := by
  have hvalid : ValidCredits (AList.insert "bob" (6 / 5) (AList.insert "alice" (9 / 5) ∅)) :=
    validCredits_iff.mpr (by decide +kernel)
  obtain ⟨fee, shares, hrun, hrule, _⟩ := allocateRewards_exact (by decide : (0 : ℤ) ≤ 100) hvalid
  exact ⟨fee, shares, hrun, hrule⟩

end TigPool
