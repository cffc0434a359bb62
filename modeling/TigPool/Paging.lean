/-
# `TigPool.Paging` — content-defined pages

A list of a capture is stored in pages, and a page is a chunk that captures share.  A page
ends behind an element whose hash selects it, so that a list that grows or shrinks by one
element keeps all its pages but those around that element.  `pageMaximum` is the exception: a
page that it closes ends where it does because of where it began.

`sha256` is a parameter.
-/
import TigPool.Basis.Paging
import TigPool.MerkleProofs

namespace TigPool

open Basis

namespace BlockStore

/-- The mean number of digests on a page of records. -/
def pageTarget : ℤ := 8

/-- The mean number of ids on a page of active ids. -/
def itemPageTarget : ℤ := 32

def pageMaximum : ℕ := 1024

section

variable (sha256 : List UInt8 → Digest) (target : ℤ)

/-- `int(hashlib.sha256(value.encode()).hexdigest()[:4], 16)` -/
def selector (value : String) : ℕ :=
  hexValue ((sha256 (encode value)).hex.toList.take 4)

def isBoundary (value : String) : Bool :=
  (selector sha256 value : ℤ).fmod target = 0

/-- One turn of the loop of `_pages`: the pages so far and the page that is being filled. -/
def addToPage : List (List String) × List String → String →
    Result (List (List String) × List String)
  | (pages, current), value => do
      let current := current ++ [value]
      require (target ≠ 0) (.malformed "integer modulo by zero")
      if isBoundary sha256 target value ∨ pageMaximum ≤ current.length then
        return (pages ++ [current], [])
      else return (pages, current)

/-- `_pages` -/
def pages (values : List String) : Result (List (List String)) := do
  let (pages, current) ← values.foldlM (addToPage sha256 target) ([], [])
  return if current.isEmpty then pages else pages ++ [current]

/-! ## The loop and the cut -/

/-- What ends a page: its last element, or its length. -/
def endsPage (page : List String) : Bool :=
  closesAt (isBoundary sha256 target) page ∨ pageMaximum ≤ page.length

/-- The maximum alone ends the page: its last element does not. -/
def ClosedByMaximum (page : List String) : Prop :=
  pageMaximum ≤ page.length ∧ closesAt (isBoundary sha256 target) page = false

end

variable {sha256 : List UInt8 → Digest} {target : ℤ}

theorem addToPage_eq (htarget : target ≠ 0) (done : List (List String)) (current : List String)
    (value : String) : addToPage sha256 target (done, current) value =
      .ok (if endsPage sha256 target (current ++ [value]) then (done ++ [current ++ [value]], [])
        else (done, current ++ [value])) := by
  have hends : endsPage sha256 target (current ++ [value]) = true ↔
      isBoundary sha256 target value ∨ pageMaximum ≤ (current ++ [value]).length := by
    rw [endsPage, closesAt_concat, decide_eq_true_iff]
  rw [addToPage, require, if_pos htarget]
  by_cases h : endsPage sha256 target (current ++ [value])
  · rw [if_pos h]
    exact if_pos (hends.mp h)
  · rw [if_neg h]
    exact if_neg fun hor => h (hends.mpr hor)

/-- The loop has cut what it has read. -/
theorem foldlM_addToPage (htarget : target ≠ 0) (values : List String) :
    ∀ (done : List (List String)) (current : List String), ∃ done' current',
      values.foldlM (addToPage sha256 target) (done, current) = .ok (done', current') ∧
      done' ++ lastPage current' = done ++ pagesFrom (endsPage sha256 target) current values := by
  induction values with
  | nil =>
      intro done current
      exact ⟨done, current, rfl, rfl⟩
  | cons value values ih =>
      intro done current
      rw [List.foldlM_cons, addToPage_eq htarget, pagesFrom]
      split
      · obtain ⟨done', current', hfold, hpages⟩ := ih (done ++ [current ++ [value]]) []
        refine ⟨done', current', hfold, ?_⟩
        rw [hpages, List.append_assoc, List.singleton_append]
      · exact ih done (current ++ [value])

theorem pages_eq (htarget : target ≠ 0) (values : List String) :
    pages sha256 target values = .ok (pagesFrom (endsPage sha256 target) [] values) := by
  obtain ⟨done, current, hfold, hpages⟩ := foldlM_addToPage htarget values [] []
  rw [pages, hfold, ← List.nil_append (pagesFrom _ _ _), ← hpages]
  cases current with
  | nil => exact congrArg _ (List.append_nil done).symm
  | cons value current => rfl

/-! ## Locality -/

/-- Without the maximum, pages end at boundaries only. -/
theorem pagesFrom_eq_of_no_maximum {values : List String}
    (h : ∀ page ∈ pagesFrom (endsPage sha256 target) [] values,
      ¬ ClosedByMaximum sha256 target page) :
    pagesFrom (endsPage sha256 target) [] values =
      pagesFrom (closesAt (isBoundary sha256 target)) [] values := by
  refine pagesFrom_eq_of_closed ?_ fun page hpage hends => ?_
  · intro page hpage
    exact decide_eq_true (.inl hpage)
  · by_contra hopen
    rcases of_decide_eq_true hends with hboundary | hmaximum
    · exact hopen hboundary
    · exact h page hpage ⟨hmaximum, Bool.eq_false_iff.mpr hopen⟩

/-- The pages of a list are the list, none is empty and none too long; and one element more
or less is a local change, unless the maximum has closed a page. -/
theorem pages_local (sha256 : List UInt8 → Digest) {target : ℤ} (htarget : target ≠ 0) :
    (∀ values, ∃ result, pages sha256 target values = .ok result ∧ result.flatten = values ∧
      ∀ page ∈ result, page ≠ [] ∧ page.length ≤ pageMaximum) ∧
    ∀ before value after less more,
      pages sha256 target (before ++ after) = .ok less →
      pages sha256 target (before ++ value :: after) = .ok more →
      (∀ page ∈ less, ¬ ClosedByMaximum sha256 target page) →
      (∀ page ∈ more, ¬ ClosedByMaximum sha256 target page) →
      LocalChange before after value less more := by
  constructor
  · intro values
    refine ⟨_, pages_eq htarget values, flatten_pagesFrom, fun page hpage => ⟨?_, ?_⟩⟩
    · exact pagesFrom_ne_nil page hpage
    · refine length_pagesFrom (fun page hlong => ?_) (by decide) page hpage
      exact decide_eq_true (.inr hlong)
  · intro before value after less more hless hmore hless' hmore'
    rw [pages_eq htarget, Except.ok.injEq] at hless hmore
    rw [← hless] at hless' ⊢
    rw [← hmore] at hmore' ⊢
    rw [pagesFrom_eq_of_no_maximum hless', pagesFrom_eq_of_no_maximum hmore']
    exact pages_localChange before after value

/-! ### Three ids -/

/-- A digest that begins with the first byte of what it was taken of. -/
def firstByte (bytes : List UInt8) : Digest :=
  ⟨0 :: bytes.headD 0 :: List.replicate 30 0, by simp⟩

/-- The new id ends the page into which it falls. -/
theorem pages_local_three :
    LocalChange ["a"] ["m"] "h" [["a", "m"]] [["a", "h"], ["m"]] :=
  (@pages_local firstByte pageTarget (by decide)).2 ["a"] "h" ["m"] _ _
    (by decide +kernel) (by decide +kernel)
    (by simp [ClosedByMaximum, pageMaximum]) (by simp [ClosedByMaximum, pageMaximum])

end BlockStore

end TigPool
