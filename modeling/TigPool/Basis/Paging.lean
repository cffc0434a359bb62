/-
# `Basis.Paging` — cutting a list into pages

A list is read from its first element on, and the page that is being filled is closed as soon
as a given rule says so.  If the rule looks at the last element of the page only, the cut is
local: behind every closed page it starts afresh, whatever came before, so an element put into
the list changes no page but the one it falls into.
-/
import Mathlib.Data.List.Basic
import Mathlib.Tactic.Common

namespace Basis

universe u

variable {α : Type u}

/-- The last page of a list, which is left out if it is empty. -/
def lastPage (page : List α) : List (List α) :=
  if page.isEmpty then [] else [page]

/-- The pages of `l` behind a page that is being filled. -/
def pagesFrom (close : List α → Bool) : List α → List α → List (List α)
  | current, [] => lastPage current
  | current, x :: l =>
      if close (current ++ [x]) then (current ++ [x]) :: pagesFrom close [] l
      else pagesFrom close (current ++ [x]) l

/-- The rule that closes a page behind every element that is a boundary. -/
def closesAt (boundary : α → Bool) (page : List α) : Bool :=
  page.getLast?.any boundary

example : pagesFrom (closesAt (· == 0)) [] [1, 0, 2] = [[1, 0], [2]] := by decide +kernel

@[simp] theorem closesAt_concat {boundary : α → Bool} (page : List α) (x : α) :
    closesAt boundary (page ++ [x]) = boundary x := by
  simp [closesAt]

theorem flatten_lastPage (page : List α) : (lastPage page).flatten = page := by
  cases page with
  | nil => rfl
  | cons x page => simp [lastPage]

theorem length_lastPage (page : List α) : (lastPage page).length ≤ 1 := by
  cases page with
  | nil => simp [lastPage]
  | cons x page => simp [lastPage]

theorem lastPage_concat (page : List α) (x : α) : lastPage (page ++ [x]) = [page ++ [x]] := by
  simp [lastPage]

theorem mem_lastPage {page q : List α} : q ∈ lastPage page ↔ q = page ∧ q ≠ [] := by
  cases page with
  | nil => simp [lastPage]
  | cons x page =>
      simp only [lastPage, List.isEmpty_cons, Bool.false_eq_true, if_false, List.mem_singleton]
      constructor
      · rintro rfl
        exact ⟨rfl, nofun⟩
      · exact And.left

/-! ## Every rule -/

section

variable {close : List α → Bool}

theorem flatten_pagesFrom {l : List α} : ∀ {current : List α},
    (pagesFrom close current l).flatten = current ++ l := by
  induction l with
  | nil =>
      intro current
      rw [pagesFrom, flatten_lastPage, List.append_nil]
  | cons x l ih =>
      intro current
      rw [pagesFrom]
      split
      · rw [List.flatten_cons, ih, List.nil_append, List.append_assoc, List.singleton_append]
      · rw [ih, List.append_assoc, List.singleton_append]

theorem pagesFrom_ne_nil {l : List α} : ∀ {current : List α},
    ∀ page ∈ pagesFrom close current l, page ≠ [] := by
  induction l with
  | nil =>
      intro current page hpage
      exact (mem_lastPage.mp hpage).2
  | cons x l ih =>
      intro current page hpage
      rw [pagesFrom] at hpage
      split at hpage
      · rcases List.mem_cons.mp hpage with rfl | hpage
        · simp
        · exact ih page hpage
      · exact ih page hpage

/-- A rule that closes every page of `maximum` elements lets none grow beyond. -/
theorem length_pagesFrom {maximum : ℕ} (hclose : ∀ page, maximum ≤ page.length → close page)
    {l : List α} : ∀ {current : List α}, current.length < maximum →
      ∀ page ∈ pagesFrom close current l, page.length ≤ maximum := by
  induction l with
  | nil =>
      intro current hcurrent page hpage
      rw [(mem_lastPage.mp hpage).1]
      omega
  | cons x l ih =>
      intro current hcurrent page hpage
      have hgrown : (current ++ [x]).length = current.length + 1 := List.length_append
      rw [pagesFrom] at hpage
      split at hpage
      · rcases List.mem_cons.mp hpage with rfl | hpage
        · omega
        · exact ih (by rw [List.length_nil]; omega) page hpage
      · rename_i hopen
        refine ih ?_ page hpage
        by_contra hfull
        exact hopen (hclose _ (by omega))

/-- If a rule never closed a page that a weaker one leaves open, both cut alike. -/
theorem pagesFrom_eq_of_closed {weak : List α → Bool} (hweak : ∀ page, weak page → close page)
    {l : List α} : ∀ {current : List α},
      (∀ page ∈ pagesFrom close current l, close page → weak page) →
        pagesFrom close current l = pagesFrom weak current l := by
  induction l with
  | nil =>
      intro current _
      rfl
  | cons x l ih =>
      intro current hclosed
      rw [pagesFrom] at hclosed ⊢
      rw [pagesFrom]
      by_cases hx : close (current ++ [x])
      · rw [if_pos hx] at hclosed ⊢
        rw [if_pos (hclosed _ (List.mem_cons_self ..) hx)]
        rw [ih fun page hpage => hclosed page (List.mem_cons_of_mem _ hpage)]
      · rw [if_neg hx] at hclosed ⊢
        rw [if_neg fun h => hx (hweak _ h)]
        exact ih hclosed

end

/-! ## Boundaries -/

section

variable {boundary : α → Bool}

/-- Every list is some closed pages and a rest without boundaries, and what follows it is cut
behind that rest whatever the pages were. -/
theorem exists_closed_append (before : List α) :
    ∃ kept rest, before = kept.flatten ++ rest ∧ ∀ after,
      pagesFrom (closesAt boundary) [] (before ++ after) =
        kept ++ pagesFrom (closesAt boundary) rest after := by
  suffices h : ∀ current, ∃ kept rest, current ++ before = kept.flatten ++ rest ∧ ∀ after,
      pagesFrom (closesAt boundary) current (before ++ after) =
        kept ++ pagesFrom (closesAt boundary) rest after by
    obtain ⟨kept, rest, hsplit, hpages⟩ := h []
    exact ⟨kept, rest, hsplit, hpages⟩
  induction before with
  | nil =>
      intro current
      exact ⟨[], current, by rw [List.append_nil]; rfl, fun after => rfl⟩
  | cons x before ih =>
      intro current
      by_cases hx : boundary x
      · obtain ⟨kept, rest, hsplit, hpages⟩ := ih []
        refine ⟨(current ++ [x]) :: kept, rest, ?_, fun after => ?_⟩
        · rw [List.flatten_cons, List.append_assoc, ← hsplit, List.append_assoc,
            List.singleton_append, List.nil_append]
        · rw [List.cons_append, pagesFrom, closesAt_concat, if_pos hx, hpages, List.cons_append]
      · obtain ⟨kept, rest, hsplit, hpages⟩ := ih (current ++ [x])
        refine ⟨kept, rest, ?_, fun after => ?_⟩
        · rw [← hsplit, List.append_assoc, List.singleton_append]
        · rw [List.cons_append, pagesFrom, closesAt_concat, if_neg hx, hpages]

/-- The page that is being filled ends at the first boundary, and the cut starts afresh. -/
theorem exists_page_append (after : List α) :
    ∃ a rest, after = a ++ rest ∧ ∀ current,
      pagesFrom (closesAt boundary) current after =
        lastPage (current ++ a) ++ pagesFrom (closesAt boundary) [] rest := by
  induction after with
  | nil =>
      refine ⟨[], [], rfl, fun current => ?_⟩
      rw [List.append_nil, pagesFrom, pagesFrom]
      exact (List.append_nil _).symm
  | cons x after ih =>
      by_cases hx : boundary x
      · refine ⟨[x], after, rfl, fun current => ?_⟩
        rw [pagesFrom, closesAt_concat, if_pos hx, lastPage_concat, List.singleton_append]
      · obtain ⟨a, rest, hsplit, hpages⟩ := ih
        refine ⟨x :: a, rest, by rw [hsplit, List.cons_append], fun current => ?_⟩
        rw [pagesFrom, closesAt_concat, if_neg hx, hpages, List.append_assoc,
          List.singleton_append]

/-- What one element `x` changes of the pages of `before ++ after`: the pages before and
behind it stay, the page it falls into, if there is one, becomes one or two. -/
def LocalChange (before after : List α) (x : α) (less more : List (List α)) : Prop :=
  ∃ kept kept' old new b a,
    before = kept.flatten ++ b ∧ after = a ++ kept'.flatten ∧
    less = kept ++ old ++ kept' ∧ more = kept ++ new ++ kept' ∧
    old.flatten = b ++ a ∧ old.length ≤ 1 ∧
    new.flatten = b ++ x :: a ∧ 1 ≤ new.length ∧ new.length ≤ 2

theorem pages_localChange (before after : List α) (x : α) :
    LocalChange before after x (pagesFrom (closesAt boundary) [] (before ++ after))
      (pagesFrom (closesAt boundary) [] (before ++ x :: after)) := by
  obtain ⟨kept, b, hbefore, hkept⟩ := @exists_closed_append _ boundary before
  obtain ⟨a, rest, hafter, hrest⟩ := @exists_page_append _ boundary after
  have hless : pagesFrom (closesAt boundary) [] (before ++ after) =
      kept ++ lastPage (b ++ a) ++ pagesFrom (closesAt boundary) [] rest := by
    rw [hkept, hrest, List.append_assoc]
  have hafter' : after = a ++ (pagesFrom (closesAt boundary) [] rest).flatten := by
    rw [hafter, flatten_pagesFrom, List.nil_append]
  by_cases hx : boundary x
  · -- The element closes the page in front of what follows it.
    have hmore : pagesFrom (closesAt boundary) [] (before ++ x :: after) =
        kept ++ (b ++ [x]) :: lastPage a ++ pagesFrom (closesAt boundary) [] rest := by
      rw [hkept, pagesFrom, closesAt_concat, if_pos hx, hrest, List.nil_append,
        List.append_assoc, List.cons_append]
    refine ⟨kept, _, lastPage (b ++ a), (b ++ [x]) :: lastPage a, b, a, hbefore, hafter', hless,
      hmore, flatten_lastPage _, length_lastPage _, ?_, Nat.le_add_left ..,
      Nat.succ_le_succ (length_lastPage _)⟩
    rw [List.flatten_cons, flatten_lastPage, List.append_assoc, List.singleton_append]
  · have hmore : pagesFrom (closesAt boundary) [] (before ++ x :: after) =
        kept ++ [b ++ x :: a] ++ pagesFrom (closesAt boundary) [] rest := by
      have hpage : lastPage (b ++ [x] ++ a) = [b ++ x :: a] := by simp [lastPage]
      rw [hkept, pagesFrom, closesAt_concat, if_neg hx, hrest, hpage, List.append_assoc]
    exact ⟨kept, _, lastPage (b ++ a), [b ++ x :: a], b, a, hbefore, hafter', hless, hmore,
      flatten_lastPage _, length_lastPage _, List.flatten_singleton, Nat.le_refl _,
      Nat.le_succ _⟩

end

end Basis
