/-
# `Basis.Traversal` — traversals, and orders that do not matter

A traversal of a list with a step that may fail relates each element to its result.  So a
traversal in another order succeeds as well and finds the same results in that order, and
rows with distinct keys, once sorted, no longer show the order in which they came.
-/
import TigPool.Basis.Checked
import Mathlib.Data.List.Perm.Basic
import Mathlib.Data.List.Sort
import Mathlib.Order.MinMax

namespace Basis

universe u

variable {ε : Type*} {α β : Type u}

/-! ## Traversals -/

theorem mapM_eq_ok {f : α → Except ε β} {xs : List α} : ∀ {ys : List β},
    xs.mapM f = .ok ys ↔ List.Forall₂ (fun x y => f x = .ok y) xs ys := by
  induction xs with
  | nil =>
      intro ys
      rw [List.mapM_nil, pure_eq_ok, List.forall₂_nil_left_iff, eq_comm]
  | cons x xs ih =>
      intro ys
      simp only [List.mapM_cons, bind_eq_ok, pure_eq_ok, List.forall₂_cons_left_iff, ih]
      constructor
      · rintro ⟨y, hy, ys, hys, rfl⟩
        exact ⟨y, ys, hy, hys, rfl⟩
      · rintro ⟨y, ys, hy, hys, rfl⟩
        exact ⟨y, hy, ys, hys, rfl⟩

/-- Every element has its result. -/
theorem exists_of_mapM_ok {f : α → Except ε β} {xs : List α} {ys : List β}
    (h : xs.mapM f = .ok ys) {x : α} (hx : x ∈ xs) : ∃ y ∈ ys, f x = .ok y := by
  have h := mapM_eq_ok.mp h
  induction h with
  | nil => cases hx
  | cons hy _ ih =>
      rename_i x' y xs ys hys
      rcases List.mem_cons.mp hx with rfl | hx
      · exact ⟨y, List.mem_cons_self .., hy⟩
      · obtain ⟨z, hz, hxz⟩ := ih (mapM_eq_ok.mpr hys) hx
        exact ⟨z, List.mem_cons_of_mem _ hz, hxz⟩

/-- A traversal succeeds if each of its steps does. -/
theorem mapM_ok {f : α → Except ε β} {xs : List α} (h : ∀ x ∈ xs, ∃ y, f x = .ok y) :
    ∃ ys, xs.mapM f = .ok ys := by
  induction xs with
  | nil => exact ⟨[], rfl⟩
  | cons x xs ih =>
      obtain ⟨y, hy⟩ := h x (List.mem_cons_self ..)
      obtain ⟨ys, hys⟩ := ih fun x hx => h x (List.mem_cons_of_mem _ hx)
      refine ⟨y :: ys, ?_⟩
      simp only [List.mapM_cons, bind_eq_ok, pure_eq_ok]
      exact ⟨y, hy, ys, hys, rfl⟩

/-- Traversals whose steps are related have related results. -/
theorem mapM_rel {S : α → α → Prop} {R : β → β → Prop} {f g : α → Except ε β} {xs xs' : List α}
    {ys : List β} (hxs : List.Forall₂ S xs xs')
    (hfg : ∀ x x', S x x' → ∀ y, f x = .ok y → ∃ y', g x' = .ok y' ∧ R y y')
    (h : xs.mapM f = .ok ys) : ∃ ys', xs'.mapM g = .ok ys' ∧ List.Forall₂ R ys ys' := by
  induction hxs generalizing ys with
  | nil =>
      obtain rfl := pure_eq_ok.mp h
      exact ⟨[], rfl, .nil⟩
  | cons hx _ ih =>
      simp only [List.mapM_cons, bind_eq_ok, pure_eq_ok] at h
      obtain ⟨y, hy, ys, hys, rfl⟩ := h
      obtain ⟨y', hy', hR⟩ := hfg _ _ hx y hy
      obtain ⟨ys', hys', hRs⟩ := ih hys
      refine ⟨y' :: ys', ?_, .cons hR hRs⟩
      simp only [List.mapM_cons, bind_eq_ok, pure_eq_ok]
      exact ⟨y', hy', ys', hys', rfl⟩

/-! ## Rows with keys -/

section Keys

variable {κ : Type*} {key : α → κ}

/-- Sorted rows do not show in which order they came. -/
theorem insertionSort_eq_of_perm [LinearOrder κ] {xs ys : List α} (hp : xs.Perm ys)
    (hkeys : (xs.map key).Nodup) :
    xs.insertionSort (fun a b => key a ≤ key b) = ys.insertionSort fun a b => key a ≤ key b := by
  have htotal : Std.Total fun a b : α => key a ≤ key b := ⟨fun a b => le_total (key a) (key b)⟩
  have htrans : IsTrans α fun a b => key a ≤ key b := ⟨fun a b c => le_trans⟩
  have hsorted (zs : List α) :
      (zs.insertionSort fun a b => key a ≤ key b).Pairwise fun a b => key a ≤ key b :=
    List.pairwise_insertionSort _ zs
  have hsame (zs : List α) : (zs.insertionSort fun a b => key a ≤ key b).Perm zs :=
    List.perm_insertionSort _ zs
  refine List.Perm.eq_of_pairwise (fun a b ha hb hab hba => ?_) (hsorted xs) (hsorted ys)
    ((hsame xs).trans (hp.trans (hsame ys).symm))
  exact List.inj_on_of_nodup_map hkeys ((hsame xs).subset ha)
    (hp.symm.subset ((hsame ys).subset hb)) (le_antisymm hab hba)

/-- Rows with the same keys, once sorted, stand side by side. -/
theorem forall₂_insertionSort [LinearOrder κ] {S : α → α → Prop} {xs ys : List α}
    (hxs : (xs.map key).Nodup) (hys : (ys.map key).Nodup)
    (hkeys : ∀ k, k ∈ xs.map key ↔ k ∈ ys.map key)
    (hS : ∀ x ∈ xs, ∀ y ∈ ys, key x = key y → S x y) :
    List.Forall₂ S (xs.insertionSort fun a b => key a ≤ key b)
      (ys.insertionSort fun a b => key a ≤ key b) := by
  have htotal : Std.Total fun a b : α => key a ≤ key b := ⟨fun a b => le_total (key a) (key b)⟩
  have htrans : IsTrans α fun a b => key a ≤ key b := ⟨fun a b c => le_trans⟩
  have hsorted (zs : List α) :
      ((zs.insertionSort fun a b => key a ≤ key b).map key).Pairwise (· ≤ ·) :=
    List.pairwise_map.mpr (List.pairwise_insertionSort _ zs)
  have hsame (zs : List α) : (zs.insertionSort fun a b => key a ≤ key b).Perm zs :=
    List.perm_insertionSort _ zs
  have hperm : (xs.map key).Perm (ys.map key) := (List.perm_ext_iff_of_nodup hxs hys).mpr hkeys
  have hnames : (xs.insertionSort fun a b => key a ≤ key b).map key
      = (ys.insertionSort fun a b => key a ≤ key b).map key :=
    List.Perm.eq_of_pairwise (fun a b _ _ => le_antisymm) (hsorted xs) (hsorted ys)
      (((hsame xs).map key).trans (hperm.trans ((hsame ys).map key).symm))
  have hrel : ∀ x ∈ xs.insertionSort (fun a b => key a ≤ key b),
      ∀ y ∈ ys.insertionSort (fun a b => key a ≤ key b), key x = key y → S x y :=
    fun x hx y hy => hS x ((hsame xs).subset hx) y ((hsame ys).subset hy)
  generalize xs.insertionSort (fun a b => key a ≤ key b) = l at hnames hrel
  generalize ys.insertionSort (fun a b => key a ≤ key b) = l' at hnames hrel
  induction l generalizing l' with
  | nil => rw [List.map_eq_nil_iff.mp hnames.symm]; exact .nil
  | cons x l ih =>
      cases l' with
      | nil => cases hnames
      | cons y l' =>
          obtain ⟨hkey, hrest⟩ := List.cons.inj hnames
          exact .cons (hrel x (List.mem_cons_self ..) y (List.mem_cons_self ..) hkey)
            (ih l' hrest fun x hx y hy =>
              hrel x (List.mem_cons_of_mem _ hx) y (List.mem_cons_of_mem _ hy))

theorem find?_key_eq_some [DecidableEq κ] {xs : List α} (hkeys : (xs.map key).Nodup) {k : κ}
    {a : α} : xs.find? (fun x => key x = k) = some a ↔ a ∈ xs ∧ key a = k := by
  constructor
  · intro h
    have hkey := List.find?_some h
    exact ⟨List.mem_of_find?_eq_some h, by simpa using hkey⟩
  · rintro ⟨ha, rfl⟩
    have hsome : (xs.find? fun x => key x = key a).isSome = true := by
      rw [List.find?_isSome]
      exact ⟨a, ha, by simp⟩
    obtain ⟨b, hb⟩ := Option.isSome_iff_exists.mp hsome
    have hkey : key b = key a := by simpa using List.find?_some hb
    rw [hb, List.inj_on_of_nodup_map hkeys (List.mem_of_find?_eq_some hb) ha hkey]

end Keys

/-! ## The least and the greatest -/

section Order

variable {γ : Type*} [LinearOrder γ] {xs : List γ} {d : γ}

theorem foldr_min_le : ∀ {x}, x ∈ xs → xs.foldr min d ≤ x := by
  induction xs with
  | nil => intro x hx; cases hx
  | cons y xs ih =>
      intro x hx
      rcases List.mem_cons.mp hx with rfl | hx
      · exact min_le_left _ _
      · exact (min_le_right _ _).trans (ih hx)

theorem foldr_min_mem (hd : d ∈ xs) : xs.foldr min d ∈ xs := by
  have hmem : ∀ ys : List γ, ys.foldr min d = d ∨ ys.foldr min d ∈ ys := by
    intro ys
    induction ys with
    | nil => exact .inl rfl
    | cons y ys ih =>
        rw [List.foldr_cons]
        rcases min_choice y (ys.foldr min d) with h | h
        · rw [h]
          exact .inr (List.mem_cons_self ..)
        · rw [h]
          exact ih.imp_right (List.mem_cons_of_mem _)
  rcases hmem xs with h | h
  · rw [h]
    exact hd
  · exact h

theorem le_foldr_max : ∀ {x}, x ∈ xs → x ≤ xs.foldr max d := by
  induction xs with
  | nil => intro x hx; cases hx
  | cons y xs ih =>
      intro x hx
      rcases List.mem_cons.mp hx with rfl | hx
      · exact le_max_left _ _
      · exact (ih hx).trans (le_max_right _ _)

/-- Where no element is below the start, one of them is the greatest. -/
theorem foldr_max_mem (hne : xs ≠ []) (hd : ∀ x ∈ xs, d ≤ x) : xs.foldr max d ∈ xs := by
  induction xs with
  | nil => exact absurd rfl hne
  | cons y xs ih =>
      rw [List.foldr_cons]
      by_cases hxs : xs = []
      · subst hxs
        rw [List.foldr_nil, max_eq_left (hd y (List.mem_cons_self ..))]
        exact List.mem_cons_self ..
      · rcases max_choice y (xs.foldr max d) with h | h
        · rw [h]
          exact List.mem_cons_self ..
        · rw [h]
          exact List.mem_cons_of_mem _ (ih hxs fun x hx => hd x (List.mem_cons_of_mem _ hx))

end Order

end Basis
