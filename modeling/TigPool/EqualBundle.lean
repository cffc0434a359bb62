/-
# `TigPool.EqualBundle` — how qualifying credit is divided among bundles

Bundles of one player, challenge, algorithm and track form a group, and the block says
how many of a group qualify.  The best bundles qualify first; bundles of equal quality
at the cut-off share what is left equally, in exact fractions.
-/
import TigPool.Schema

namespace TigPool

open Basis

namespace BlockSnapshot

/-- What the compaction of a capture keeps: all about the pool's player, and no other. -/
def compact (snapshot : BlockSnapshot) (playerId : String) : BlockSnapshot where
  bundles := snapshot.bundles.filter (·.playerId = playerId)
  qualifiers := snapshot.qualifiers.filter fun group _ => group.1 = playerId
  precommits := snapshot.precommits.filter fun _ player => player = playerId
  feeds := snapshot.feeds.filter fun player _ => player = playerId

/-- What `validate_snapshot` has made sure of: bundles belong to the player of their
precommit, are listed once, and suffice for the qualifiers of their group. -/
structure Valid (snapshot : BlockSnapshot) : Prop where
  owners : ∀ bundle ∈ snapshot.bundles,
    snapshot.precommits.lookup bundle.benchmarkId = some bundle.playerId
  distinct : (snapshot.bundles.map fun bundle => (bundle.benchmarkId, bundle.activeIndex)).Nodup
  enough : ∀ group, (snapshot.qualifiers.lookup group).getD 0
    ≤ snapshot.bundles.countP (·.group = group)

/-- The number of a player's bundles that qualify. -/
def qualifiersOf (snapshot : BlockSnapshot) (playerId : String) : ℕ :=
  snapshot.qualifiers.total fun group count => if group.1 = playerId then count else 0

/-- The active benchmarks of a player. -/
def ownedBy (snapshot : BlockSnapshot) (playerId : String) : List String :=
  (snapshot.precommits.filter fun _ player => player = playerId).keys

end BlockSnapshot

/-! ## The rule -/

namespace EqualBundle

/-- The order in which bundles qualify. -/
def precedes (a b : Bundle) : Prop :=
  b.quality < a.quality ∨ (a.quality = b.quality ∧
    (a.benchmarkId < b.benchmarkId ∨
      (a.benchmarkId = b.benchmarkId ∧ a.activeIndex ≤ b.activeIndex)))

instance : DecidableRel precedes := fun a b => by
  unfold precedes
  infer_instance

/-- The bundles of a group, the best first, ties together. -/
def ranked (snapshot : BlockSnapshot) (group : Group) : List (List Bundle) :=
  ((snapshot.bundles.filter (·.group = group)).insertionSort precedes).splitBy
    fun a b => a.quality = b.quality

/-- Hand out the credits that remain, class by class; the result is the share of each
bundle and what nobody could take. -/
def award : ℕ → List (List Bundle) → List (Bundle × ℚ) × ℕ
  | remaining, [] => ([], remaining)
  | remaining, tied :: rest =>
      let awarded := min remaining tied.length
      let share : ℚ := awarded / tied.length
      let (credits, left) := award (remaining - awarded) rest
      (tied.map (·, share) ++ credits, left)

/-- The credits of one group. -/
def groupCredit (snapshot : BlockSnapshot) (group : Group) : Result (List (Bundle × ℚ)) := do
  let (credits, left) := award ((snapshot.qualifiers.lookup group).getD 0) (ranked snapshot group)
  require (left = 0) (.protocolData "unallocated qualifying credit")
  return credits

def groups (snapshot : BlockSnapshot) : List Group :=
  (snapshot.bundles.map (·.group)).dedup

/-- Credits by benchmark and active index. -/
abbrev Credits := Table (String × ℕ) ℚ

def putCredit (item : Bundle × ℚ) (credits : Credits) : Credits :=
  AList.insert (item.1.benchmarkId, item.1.activeIndex) item.2 credits

end EqualBundle

open EqualBundle in
/-- These are credits, not token amounts. -/
def equalBundleCredit (snapshot : BlockSnapshot) : Result Credits := do
  let parts ← (groups snapshot).mapM (groupCredit snapshot)
  let credits : Credits := parts.flatten.foldr putCredit ∅
  require (credits.total (fun _ credit => credit)
      = ((snapshot.qualifiers.total fun _ count => count : ℕ) : ℚ))
    (.protocolData "qualifying credit does not reconcile exactly")
  return credits

/-! ## Shares are fractions -/

namespace EqualBundle

theorem award_nonneg {classes : List (List Bundle)} : ∀ {remaining : ℕ},
    ∀ item ∈ (award remaining classes).1, (0 : ℚ) ≤ item.2 := by
  induction classes with
  | nil =>
      intro remaining item hitem
      cases hitem
  | cons tied rest ih =>
      intro remaining item hitem
      rcases List.mem_append.mp hitem with hitem | hitem
      · obtain ⟨b, -, rfl⟩ := List.mem_map.mp hitem
        exact div_nonneg (Nat.cast_nonneg _) (Nat.cast_nonneg _)
      · exact ih item hitem

theorem putCredit_nonneg {items : List (Bundle × ℚ)} (h : ∀ item ∈ items, 0 ≤ item.2) :
    ∀ key credit, (items.foldr putCredit ∅).lookup key = some credit → 0 ≤ credit := by
  induction items with
  | nil =>
      intro key credit hcredit
      cases hcredit
  | cons item rest ih =>
      intro key credit hcredit
      rcases Table.lookup_insert_cases hcredit with ⟨-, rfl⟩ | ⟨-, hcredit⟩
      · exact h item (List.mem_cons_self ..)
      · exact ih (fun item hitem => h item (List.mem_cons_of_mem _ hitem)) key credit hcredit

end EqualBundle

open EqualBundle

/-- No bundle has negative credit. -/
theorem equalBundleCredit_nonneg {snapshot : BlockSnapshot} {credits : Credits}
    (h : equalBundleCredit snapshot = .ok credits) {key : String × ℕ} {credit : ℚ}
    (hcredit : credits.lookup key = some credit) : 0 ≤ credit := by
  simp only [equalBundleCredit, bind_eq_ok, require_eq_ok, exists_const, pure_eq_ok] at h
  obtain ⟨parts, hparts, -, rfl⟩ := h
  refine putCredit_nonneg (fun item hitem => ?_) key credit hcredit
  obtain ⟨part, hpart, hitem⟩ := List.mem_flatten.mp hitem
  obtain ⟨group, -, hgroup⟩ := mem_of_mapM_ok hparts part hpart
  simp only [groupCredit, bind_eq_ok, require_eq_ok, exists_const, pure_eq_ok] at hgroup
  obtain ⟨-, rfl⟩ := hgroup
  exact award_nonneg item hitem

end TigPool
