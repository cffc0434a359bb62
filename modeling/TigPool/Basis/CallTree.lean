/-
# `Basis.CallTree` — a tree written down as a flat list

Every node of a list has an address, the indices of the children on the way down to it,
and an arity, how many children it says it has.  The list is `Complete` if it is one whole
tree: nothing occurs twice, the root and every ancestor are there, and the children of each
node are numbered from zero up to its arity.

Two facts make completeness worth checking.  The arities of a complete list count all its
nodes but the root; and a complete list has no smaller complete list inside it, so whoever
leaves nodes out of a tree cannot pass the rest off as a tree.
-/
import Mathlib

namespace Basis

variable {ι : Type} {address : ι → List ℕ} {arity : ι → ℕ} {nodes smaller : List ι}

/-- The list is one whole tree. -/
structure Complete (address : ι → List ℕ) (arity : ι → ℕ) (nodes : List ι) : Prop where
  unique : (nodes.map address).Nodup
  root : [] ∈ nodes.map address
  ancestors : ∀ node ∈ nodes, ∀ p, p <+: address node → p ∈ nodes.map address
  children : ∀ node ∈ nodes, ∀ i, address node ++ [i] ∈ nodes.map address ↔ i < arity node

/-- If the parent of every node is there, all ancestors are. -/
theorem ancestors_of_parents
    (h : ∀ node ∈ nodes, address node ≠ [] → (address node).dropLast ∈ nodes.map address) :
    ∀ node ∈ nodes, ∀ p, p <+: address node → p ∈ nodes.map address := by
  have hup : ∀ n, ∀ a ∈ nodes.map address, a.length = n →
      ∀ p, p <+: a → p ∈ nodes.map address := by
    intro n
    induction n with
    | zero =>
        intro a ha hlength p hp
        obtain rfl := List.length_eq_zero_iff.mp hlength
        rwa [List.prefix_nil.mp hp]
    | succ n ih =>
        intro a ha hlength p hp
        obtain ⟨node, hnode, rfl⟩ := List.mem_map.mp ha
        by_cases heq : p = address node
        · rwa [heq]
        · have hne : address node ≠ [] := by
            intro hnil
            rw [hnil] at hlength
            cases hlength
          have hparent : p <+: (address node).dropLast := by
            obtain ⟨rest, hrest⟩ := hp
            have hrestne : rest ≠ [] := by
              rintro rfl
              exact heq (by rw [← hrest, List.append_nil])
            rw [← hrest, List.dropLast_append_of_ne_nil hrestne]
            exact List.prefix_append _ _
          exact ih _ (h node hnode hne) (by rw [List.length_dropLast, hlength]; rfl) p hparent
  intro node hnode p hp
  exact hup _ _ (List.mem_map_of_mem hnode) rfl p hp

namespace Complete

/-- The arities count every node but the root. -/
theorem sum_arity (h : Complete address arity nodes) :
    (nodes.map arity).sum + 1 = nodes.length := by
  classical
  have hinj : ∀ a ∈ nodes, ∀ b ∈ nodes, address a = address b → a = b :=
    fun a ha b hb => List.inj_on_of_nodup_map h.unique ha hb
  have hnodup : nodes.Nodup := List.Nodup.of_map _ h.unique
  let addresses := (nodes.map address).toFinset
  have hcard : addresses.card = nodes.length := by
    rw [List.toFinset_card_of_nodup h.unique, List.length_map]
  have hroot : [] ∈ addresses := List.mem_toFinset.mpr h.root
  -- Every address but the root lies among the children of its parent.
  have hmaps : ∀ a ∈ addresses.erase [], a.dropLast ∈ addresses := by
    intro a ha
    obtain ⟨node, hnode, rfl⟩ := List.mem_map.mp (List.mem_toFinset.mp (Finset.mem_of_mem_erase ha))
    exact List.mem_toFinset.mpr (h.ancestors node hnode _ (List.dropLast_prefix _))
  have hfiber : ∀ node ∈ nodes,
      ((addresses.erase []).filter fun a => a.dropLast = address node).card = arity node := by
    intro node hnode
    have heq : (addresses.erase []).filter (fun a => a.dropLast = address node)
        = (Finset.range (arity node)).image fun i => address node ++ [i] := by
      ext a
      simp only [Finset.mem_filter, Finset.mem_erase, Finset.mem_image, Finset.mem_range]
      constructor
      · rintro ⟨⟨hne, hmem⟩, hparent⟩
        have hsplit : address node ++ [a.getLast hne] = a := by
          rw [← hparent, List.dropLast_append_getLast]
        refine ⟨a.getLast hne, (h.children node hnode _).mp ?_, hsplit⟩
        rw [hsplit]
        exact List.mem_toFinset.mp hmem
      · rintro ⟨i, hi, rfl⟩
        exact ⟨⟨by simp, List.mem_toFinset.mpr ((h.children node hnode i).mpr hi)⟩, by simp⟩
    rw [heq, Finset.card_image_of_injective _ fun i j hij => by simpa using hij, Finset.card_range]
  calc (nodes.map arity).sum + 1
      = (∑ node ∈ nodes.toFinset, arity node) + 1 := by rw [List.sum_toFinset _ hnodup]
    _ = (∑ node ∈ nodes.toFinset,
          ((addresses.erase []).filter fun a => a.dropLast = address node).card) + 1 := by
        rw [Finset.sum_congr rfl fun node hnode => hfiber node (List.mem_toFinset.mp hnode)]
    _ = (∑ b ∈ addresses, ((addresses.erase []).filter fun a => a.dropLast = b).card) + 1 := by
        have himage : addresses = nodes.toFinset.image address := by
          ext a
          simp [addresses]
        rw [himage, Finset.sum_image fun a ha b hb =>
          hinj a (List.mem_toFinset.mp ha) b (List.mem_toFinset.mp hb)]
    _ = (addresses.erase []).card + 1 := by
        rw [Finset.card_eq_sum_card_fiberwise hmaps]
    _ = nodes.length := by rw [Finset.card_erase_add_one hroot, hcard]

/-- Nothing can be left out of a complete list. -/
theorem eq_of_sublist (h : Complete address arity nodes) (hs : Complete address arity smaller)
    (hsub : smaller.Sublist nodes) : smaller = nodes := by
  have hall : ∀ a, a ∈ nodes.map address → a ∈ smaller.map address := by
    intro a
    induction a using List.reverseRecOn with
    | nil => exact fun _ => hs.root
    | append_singleton parent i ih =>
        intro ha
        obtain ⟨node, hnode, haddress⟩ := List.mem_map.mp ha
        -- The parent was kept, by induction, and says that it has this child.
        have hparent : parent ∈ nodes.map address :=
          h.ancestors node hnode parent (haddress ▸ List.prefix_append _ _)
        obtain ⟨kept, hkept, rfl⟩ := List.mem_map.mp (ih hparent)
        have harity : i < arity kept := (h.children kept (hsub.subset hkept) i).mp ha
        exact (hs.children kept hkept i).mpr harity
  have hlength : nodes.length ≤ smaller.length := by
    have hle := (h.unique.subperm hall).length_le
    simpa using hle
  exact hsub.eq_of_length_le hlength

end Complete

end Basis
