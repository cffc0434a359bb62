/-
# `Basis.Table` — keyed tables and the totals over their rows

A table is a finite map from keys to rows; that no key occurs twice is part of
the value, so a second row under a key cannot be built.  The finite map is
Mathlib's association list.  This file adds what a database needs on top of it:
queries over all rows (`any`, `find`), totals of a measure over all rows, and the
two facts from which conservation arguments are made — a fresh row adds its own
measure to the total, a replaced row adds the difference.
-/
import Mathlib.Data.List.AList
import Mathlib.Algebra.BigOperators.Group.List.Basic
import Mathlib.Algebra.Order.Group.Int
import Mathlib.Algebra.Order.BigOperators.Group.List
import Mathlib.Tactic.Abel

namespace Basis

/-- A finite map from keys to rows. -/
abbrev Table (κ : Type*) (α : Type*) := AList fun _ : κ => α

namespace Table

variable {κ α β M : Type*}

/-- Does some row satisfy the condition? -/
def any (t : Table κ α) (p : κ → α → Bool) : Bool :=
  t.entries.any fun e => p e.1 e.2

/-- The first row that satisfies the condition. -/
def find (t : Table κ α) (p : κ → α → Bool) : Option (κ × α) :=
  (t.entries.find? fun e => p e.1 e.2).map fun e => (e.1, e.2)

/-- The number of rows that satisfy the condition. -/
def count (t : Table κ α) (p : κ → α → Bool) : ℕ :=
  t.entries.countP fun e => p e.1 e.2

/-- The same keys with rewritten rows. -/
def mapVals (f : κ → α → β) (t : Table κ α) : Table κ β where
  entries := t.entries.map fun e => ⟨e.1, f e.1 e.2⟩
  nodupKeys := by
    have h : (t.entries.map fun e => (⟨e.1, f e.1 e.2⟩ : Sigma fun _ : κ => β)).keys = t.keys := by
      simp [List.keys, AList.keys, Function.comp_def]
    rw [List.NodupKeys, h]
    exact t.keys_nodup

/-- The rows that satisfy a condition. -/
def filter (p : κ → α → Bool) (t : Table κ α) : Table κ α where
  entries := t.entries.filter fun e => p e.1 e.2
  nodupKeys := by
    have h : ((t.entries.filter fun e => p e.1 e.2).map Sigma.fst).Nodup :=
      (List.filter_sublist.map Sigma.fst).nodup t.keys_nodup
    exact h

/-- The measure `f` added up over all rows. -/
def total [AddCommMonoid M] (f : κ → α → M) (t : Table κ α) : M :=
  (t.entries.map fun e => f e.1 e.2).sum

@[simp] theorem keys_mapVals {f : κ → α → β} {t : Table κ α} : (mapVals f t).keys = t.keys := by
  simp [AList.keys, List.keys, mapVals, Function.comp_def]

theorem mapVals_mapVals {γ : Type*} {f : κ → α → β} {g : κ → β → γ} {t : Table κ α} :
    mapVals g (mapVals f t) = mapVals (fun k a => g k (f k a)) t :=
  AList.ext (by simp [mapVals, Function.comp_def])

section Lookup

variable [DecidableEq κ]

theorem mem_entries_iff {t : Table κ α} {k : κ} {a : α} :
    (⟨k, a⟩ : Sigma fun _ : κ => α) ∈ t.entries ↔ t.lookup k = some a :=
  AList.mem_lookup_iff.symm

theorem lookup_insert_eq {t : Table κ α} {k k' : κ} {a : α} :
    (AList.insert k a t).lookup k' = if k' = k then some a else t.lookup k' := by
  split
  next h => rw [h, AList.lookup_insert]
  next h => exact AList.lookup_insert_ne h

theorem lookup_of_insert {t t' : Table κ α} {k : κ} {a : α} (h : t' = AList.insert k a t)
    (k' : κ) : t'.lookup k' = if k' = k then some a else t.lookup k' := by
  rw [h, lookup_insert_eq]

/-- A row of a table into which one row was written. -/
theorem lookup_insert_cases {t : Table κ α} {k k' : κ} {a b : α}
    (h : (AList.insert k a t).lookup k' = some b) :
    (k' = k ∧ b = a) ∨ (k' ≠ k ∧ t.lookup k' = some b) := by
  rw [lookup_insert_eq] at h
  split at h
  next heq => exact Or.inl ⟨heq, (Option.some.inj h).symm⟩
  next hne => exact Or.inr ⟨hne, h⟩

theorem lookup_erase_cases {t : Table κ α} {k k' : κ} {a : α}
    (h : (AList.erase k t).lookup k' = some a) : k' ≠ k ∧ t.lookup k' = some a := by
  have hne : k' ≠ k := by
    rintro rfl
    rw [AList.lookup_erase] at h
    cases h
  exact ⟨hne, by rwa [AList.lookup_erase_ne hne] at h⟩

theorem any_iff {t : Table κ α} {p : κ → α → Bool} :
    t.any p = true ↔ ∃ k a, t.lookup k = some a ∧ p k a = true := by
  rw [any, List.any_eq_true]
  constructor
  · rintro ⟨⟨k, a⟩, hmem, hp⟩
    exact ⟨k, a, mem_entries_iff.mp hmem, hp⟩
  · rintro ⟨k, a, hmem, hp⟩
    exact ⟨⟨k, a⟩, mem_entries_iff.mpr hmem, hp⟩

theorem any_eq_false {t : Table κ α} {p : κ → α → Bool} :
    t.any p = false ↔ ∀ k a, t.lookup k = some a → p k a = false := by
  rw [Bool.eq_false_iff, Ne, any_iff]
  push Not
  simp only [Bool.not_eq_true]

theorem find_eq_some {t : Table κ α} {p : κ → α → Bool} {k : κ} {a : α}
    (h : t.find p = some (k, a)) : t.lookup k = some a ∧ p k a = true := by
  obtain ⟨⟨k', a'⟩, hfind, heq⟩ := Option.map_eq_some_iff.mp h
  obtain ⟨rfl, rfl⟩ := Prod.mk.inj heq
  exact ⟨mem_entries_iff.mp (List.mem_of_find?_eq_some hfind),
    by simpa using List.find?_some hfind⟩

theorem find_eq_none {t : Table κ α} {p : κ → α → Bool} :
    t.find p = none ↔ ∀ k a, t.lookup k = some a → p k a = false := by
  rw [find, Option.map_eq_none_iff, List.find?_eq_none]
  constructor
  · intro h k a hk
    simpa using h ⟨k, a⟩ (mem_entries_iff.mpr hk)
  · rintro h ⟨k, a⟩ hk
    simpa using h k a (mem_entries_iff.mp hk)

theorem mapVals_congr {f g : κ → α → β} {t : Table κ α}
    (h : ∀ k a, t.lookup k = some a → f k a = g k a) : mapVals f t = mapVals g t :=
  AList.ext (List.map_congr_left fun e he => by rw [h e.1 e.2 (mem_entries_iff.mp he)])

theorem lookup_mapVals {f : κ → α → β} {t : Table κ α} {k : κ} :
    (mapVals f t).lookup k = (t.lookup k).map (f k) := by
  cases h : t.lookup k with
  | some a =>
      refine mem_entries_iff.mp (List.mem_map.mpr ⟨⟨k, a⟩, mem_entries_iff.mpr h, rfl⟩)
  | none =>
      rw [AList.lookup_eq_none] at h
      simp only [Option.map_none, AList.lookup_eq_none]
      intro hmem
      exact h (AList.mem_keys.mpr (keys_mapVals ▸ AList.mem_keys.mp hmem))

theorem lookup_filter {p : κ → α → Bool} {t : Table κ α} {k : κ} {a : α} :
    (filter p t).lookup k = some a ↔ t.lookup k = some a ∧ p k a = true := by
  rw [← mem_entries_iff, ← mem_entries_iff, filter, List.mem_filter]

/-- Tables with the same lookups list the same rows. -/
theorem entries_perm_of_lookup_eq {t t' : Table κ α} (h : ∀ k, t.lookup k = t'.lookup k) :
    t.entries.Perm t'.entries :=
  List.lookup_ext t.nodupKeys t'.nodupKeys fun k a => by
    have hk : List.dlookup k t.entries = List.dlookup k t'.entries := h k
    rw [hk]

/-- Taking one row out of a table. -/
theorem entries_perm_of_lookup {t : Table κ α} {k : κ} {a : α} (h : t.lookup k = some a) :
    t.entries.Perm (⟨k, a⟩ :: (AList.erase k t).entries) := by
  have hmem : k ∈ t.entries.keys := AList.mem_keys.mp (AList.lookup_isSome.mp (by simp [h]))
  obtain ⟨b, l₁, l₂, hnot, heq, herase⟩ := List.exists_of_kerase hmem
  have hb : t.lookup k = some b := mem_entries_iff.mp (by rw [heq]; simp)
  obtain rfl : b = a := Option.some.inj (hb.symm.trans h)
  rw [show (AList.erase k t).entries = l₁ ++ l₂ from herase, heq]
  exact List.perm_middle

end Lookup

/-! ## Counts -/

section Count

variable [DecidableEq κ] {t : Table κ α} {p : κ → α → Bool} {k : κ} {a b : α}

theorem count_insert_fresh (h : t.lookup k = none) :
    count (AList.insert k a t) p = count t p + if p k a then 1 else 0 := by
  rw [count, AList.entries_insert_of_notMem (AList.lookup_eq_none.mp h), List.countP_cons]
  rfl

/-- Replacing a row does not raise the count, unless the new row satisfies the
condition and the old one did not. -/
theorem count_insert_le (h : t.lookup k = some b) (hab : p k a = true → p k b = true) :
    count (AList.insert k a t) p ≤ count t p := by
  rw [count, count, (entries_perm_of_lookup h).countP_eq, AList.entries_insert, List.countP_cons,
    List.countP_cons]
  refine Nat.add_le_add_left ?_ _
  by_cases ha : p k a = true
  · simp [ha, hab ha]
  · simp [ha]

end Count

/-! ## Totals -/

section Total

variable [AddCommMonoid M]

theorem total_mapVals {f : κ → α → β} {g : κ → β → M} {t : Table κ α} :
    total g (mapVals f t) = total (fun k a => g k (f k a)) t := by
  simp [total, mapVals, Function.comp_def]

theorem total_filter {f : κ → α → M} {p : κ → α → Bool} {t : Table κ α} :
    total f (filter p t) = total (fun k a => if p k a then f k a else 0) t := by
  show ((t.entries.filter fun e => p e.1 e.2).map fun e => f e.1 e.2).sum
    = (t.entries.map fun e => if p e.1 e.2 then f e.1 e.2 else 0).sum
  induction t.entries with
  | nil => rfl
  | cons e rest ih =>
      rw [List.map_cons, List.sum_cons, ← ih, List.filter_cons]
      split
      next h => rw [List.map_cons, List.sum_cons]
      next h => rw [zero_add]

@[simp] theorem total_empty {f : κ → α → M} : total f (∅ : Table κ α) = 0 := rfl

theorem total_perm {f : κ → α → M} {t t' : Table κ α} (h : t.entries.Perm t'.entries) :
    total f t = total f t' :=
  (h.map _).sum_eq

theorem total_add {f g : κ → α → M} {t : Table κ α} :
    total (fun k a => f k a + g k a) t = total f t + total g t :=
  List.sum_map_add

variable [DecidableEq κ]

/-- A row under a fresh key adds its own measure. -/
theorem total_insert_fresh {f : κ → α → M} {t : Table κ α} {k : κ} {a : α}
    (h : t.lookup k = none) : total f (AList.insert k a t) = f k a + total f t := by
  rw [total, AList.entries_insert_of_notMem (AList.lookup_eq_none.mp h)]
  rfl

theorem total_erase_add {f : κ → α → M} {t : Table κ α} {k : κ} {a : α}
    (h : t.lookup k = some a) : total f t = f k a + total f (AList.erase k t) := by
  rw [total, ((entries_perm_of_lookup h).map _).sum_eq]
  rfl

theorem total_insert {f : κ → α → M} {t : Table κ α} {k : κ} {a : α} :
    total f (AList.insert k a t) = f k a + total f (AList.erase k t) := by
  rw [total, AList.entries_insert]
  rfl

theorem total_congr {f g : κ → α → M} {t : Table κ α}
    (h : ∀ k a, t.lookup k = some a → f k a = g k a) : total f t = total g t := by
  rw [total, total, List.map_congr_left]
  rintro ⟨k, a⟩ hmem
  exact h k a (mem_entries_iff.mp hmem)

theorem total_eq_zero {f : κ → α → M} {t : Table κ α}
    (h : ∀ k a, t.lookup k = some a → f k a = 0) : total f t = 0 := by
  rw [total_congr h, total]
  simp

/-- A total is a sum over the keys. -/
theorem sum_keys_eq_total {g : κ → M} {f : κ → α → M} {t : Table κ α}
    (h : ∀ k a, t.lookup k = some a → g k = f k a) : (t.keys.map g).sum = total f t := by
  rw [total, AList.keys, List.keys, List.map_map]
  congr 1
  refine List.map_congr_left ?_
  rintro ⟨k, a⟩ hmem
  exact h k a (mem_entries_iff.mp hmem)

/-- A table made from a list of keys. -/
theorem lookup_foldr_insert {g : κ → α} {ks : List κ} {k : κ} :
    (ks.foldr (fun k t => AList.insert k (g k) t) (∅ : Table κ α)).lookup k
      = if k ∈ ks then some (g k) else none := by
  induction ks with
  | nil => rfl
  | cons j rest ih =>
      rw [List.foldr_cons, lookup_insert_eq, ih]
      by_cases hkj : k = j
      · simp [hkj]
      · simp [hkj]

/-- Working through a table, each of whose rows changes what another table has under its key. -/
theorem lookup_foldl_entries {f : Table κ α → κ × β → Table κ α} {g : Option α → β → Option α}
    (hself : ∀ t k b, (f t (k, b)).lookup k = g (t.lookup k) b)
    (hother : ∀ t k b k', k' ≠ k → (f t (k, b)).lookup k' = t.lookup k')
    {items : Table κ β} {t : Table κ α} {k : κ} :
    ((items.entries.map fun e => (e.1, e.2)).foldl f t).lookup k
      = (items.lookup k).elim (t.lookup k) (g (t.lookup k)) := by
  obtain ⟨entries, hnodup⟩ := items
  show ((entries.map fun e => (e.1, e.2)).foldl f t).lookup k
    = (entries.dlookup k).elim (t.lookup k) (g (t.lookup k))
  induction entries generalizing t with
  | nil => rfl
  | cons e rest ih =>
      obtain ⟨j, b⟩ := e
      obtain ⟨hj, hrest⟩ := List.nodupKeys_cons.mp hnodup
      rw [List.map_cons, List.foldl_cons, ih hrest]
      by_cases hkj : k = j
      · subst hkj
        rw [List.dlookup_eq_none.mpr hj, List.dlookup_cons_eq]
        exact hself t k b
      · rw [List.dlookup_cons_ne _ _ hkj, hother t j b k hkj]

theorem total_foldr_insert {g : κ → M} {ks : List κ} (h : ks.Nodup) :
    total (fun _ a => a) (ks.foldr (fun k t => AList.insert k (g k) t) (∅ : Table κ M))
      = (ks.map g).sum := by
  induction ks with
  | nil => rfl
  | cons k rest ih =>
      obtain ⟨hk, hrest⟩ := List.nodup_cons.mp h
      rw [List.foldr_cons, total_insert_fresh, ih hrest, List.map_cons, List.sum_cons]
      rw [lookup_foldr_insert, if_neg hk]

/-- Sums of totals are totals of sums. -/
theorem sum_map_total {ι : Type*} {is : List ι} {f : ι → κ → α → M} {t : Table κ α} :
    (is.map fun i => total (f i) t).sum = total (fun k a => (is.map fun i => f i k a).sum) t := by
  induction is with
  | nil => exact (total_eq_zero fun _ _ _ => rfl).symm
  | cons i rest ih =>
      simp only [List.map_cons, List.sum_cons]
      rw [total_add, ih]

/-- A measure that is zero on every row but one. -/
theorem total_eq_single {f : κ → α → M} {t : Table κ α} {k : κ} {a : α}
    (hk : t.lookup k = some a) (h : ∀ j b, j ≠ k → t.lookup j = some b → f j b = 0) :
    total f t = f k a := by
  rw [total_erase_add hk, total_eq_zero, add_zero]
  intro j b hj
  by_cases hjk : j = k
  · rw [hjk, AList.lookup_erase] at hj
    exact absurd hj (by simp)
  · rw [AList.lookup_erase_ne hjk] at hj
    exact h j b hjk hj

end Total

/-- A replaced row adds the difference of the two measures. -/
theorem total_insert_of_lookup [AddCommGroup M] [DecidableEq κ] {f : κ → α → M} {t : Table κ α}
    {k : κ} {a b : α} (h : t.lookup k = some b) :
    total f (AList.insert k a t) = total f t + (f k a - f k b) := by
  rw [total_insert, total_erase_add h]
  abel

/-- Two measures that differ on one row only. -/
theorem total_change [AddCommGroup M] [DecidableEq κ] {f g : κ → α → M} {t : Table κ α} {k : κ}
    {a : α} (h : t.lookup k = some a) (hne : ∀ j b, j ≠ k → t.lookup j = some b → f j b = g j b) :
    total f t = total g t + (f k a - g k a) := by
  have hrest : total f (AList.erase k t) = total g (AList.erase k t) := by
    refine total_congr fun j b hj => ?_
    by_cases hjk : j = k
    · rw [hjk, AList.lookup_erase] at hj
      cases hj
    · rw [AList.lookup_erase_ne hjk] at hj
      exact hne j b hjk hj
  rw [total_erase_add h, total_erase_add h, hrest]
  abel

theorem total_neg [AddCommGroup M] [DecidableEq κ] {f : κ → α → M} {t : Table κ α} :
    total (fun k a => -f k a) t = -total f t := by
  refine eq_neg_of_add_eq_zero_left ?_
  rw [← total_add]
  exact total_eq_zero fun _ _ _ => neg_add_cancel _

theorem total_natCast {f : κ → α → ℕ} {t : Table κ α} :
    ((total f t : ℕ) : ℤ) = total (fun k a => (f k a : ℤ)) t := by
  rw [total, total]
  induction t.entries with
  | nil => rfl
  | cons e rest ih => rw [List.map_cons, List.map_cons, List.sum_cons, List.sum_cons, Nat.cast_add, ih]

/-- Rewriting a row without changing its measure. -/
theorem total_insert_same [AddCommMonoid M] [DecidableEq κ] {f : κ → α → M} {t : Table κ α} {k : κ}
    {a b : α} (h : t.lookup k = some b) (hab : f k a = f k b) :
    total f (AList.insert k a t) = total f t := by
  rw [total_insert, total_erase_add h, hab]

theorem total_nonneg [AddCommMonoid M] [PartialOrder M] [IsOrderedAddMonoid M] [DecidableEq κ]
    {f : κ → α → M} {t : Table κ α}
    (h : ∀ k a, t.lookup k = some a → 0 ≤ f k a) : 0 ≤ total f t := by
  refine List.sum_nonneg fun x hx => ?_
  obtain ⟨⟨k, a⟩, hmem, rfl⟩ := List.mem_map.mp hx
  exact h k a (mem_entries_iff.mp hmem)

/-- A table whose rows all have a row under the same key of another table, of no smaller
measure. -/
theorem total_le_total [AddCommMonoid M] [PartialOrder M] [IsOrderedAddMonoid M]
    [CanonicallyOrderedAdd M] [DecidableEq κ] {f : κ → α → M} {g : κ → β → M} {t : Table κ α} :
    ∀ {t' : Table κ β}, (∀ k a, t.lookup k = some a → ∃ b, t'.lookup k = some b ∧ f k a ≤ g k b) →
      total f t ≤ total g t' := by
  induction t using AList.insertRec with
  | H0 =>
      intro t' _
      exact zero_le
  | IH k a t hk ih =>
      intro t' h
      obtain ⟨b, hb, hab⟩ := h k a (AList.lookup_insert t)
      rw [total_insert_fresh (AList.lookup_eq_none.mpr hk), total_erase_add hb]
      refine add_le_add hab (ih fun j c hc => ?_)
      have hne : j ≠ k := by
        rintro rfl
        exact hk (AList.lookup_isSome.mp (Option.isSome_of_eq_some hc))
      obtain ⟨d, hd, hcd⟩ := h j c (by rw [AList.lookup_insert_ne hne, hc])
      exact ⟨d, by rw [AList.lookup_erase_ne hne, hd], hcd⟩

/-! ## Rows that are unlike each other -/

section Distinct

variable [DecidableEq κ] {R : α → α → Prop} {t : Table κ α} {k : κ} {a b : α}

/-- No two rows are alike in the sense of `R`. -/
def Distinct (R : α → α → Prop) (t : Table κ α) : Prop :=
  ∀ ⦃k k' a a'⦄, t.lookup k = some a → t.lookup k' = some a' → R a a' → k = k'

theorem Distinct.empty : Distinct R (∅ : Table κ α) := fun _ _ _ _ h => by cases h

/-- A row unlike all others is added, or takes the place of another. -/
theorem Distinct.insert (h : Distinct R t) (hsymm : ∀ a b, R a b → R b a)
    (hnew : ∀ k' a', k' ≠ k → t.lookup k' = some a' → ¬ R a a') :
    Distinct R (AList.insert k a t) := by
  intro i j x y hx hy hxy
  rcases lookup_insert_cases hx with ⟨hi, hxa⟩ | ⟨hi, hold⟩ <;>
    rcases lookup_insert_cases hy with ⟨hj, hya⟩ | ⟨hj, hold'⟩
  · rw [hi, hj]
  · rw [hxa] at hxy
    exact absurd hxy (hnew _ _ hj hold')
  · rw [hya] at hxy
    exact absurd (hsymm _ _ hxy) (hnew _ _ hi hold)
  · exact h hold hold' hxy

/-- A row is replaced by one that is like no row it was not like before. -/
theorem Distinct.replace (h : Distinct R t) (hsymm : ∀ a b, R a b → R b a)
    (ha : t.lookup k = some a) (hlike : ∀ a', R b a' → R a a') :
    Distinct R (AList.insert k b t) :=
  h.insert hsymm fun _ a' hne ha' hba => hne (h ha' ha (hsymm _ _ (hlike a' hba)))

end Distinct

end Table

end Basis
