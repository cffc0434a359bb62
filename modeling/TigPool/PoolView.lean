/-
# `TigPool.PoolView` — what a block says about one player

A validated block always divides its qualifying credit: every group has enough bundles,
so nothing is left over, and the shares add up to what qualifies.  A compact copy for a
player keeps the groups of that player whole, so it gives that player's bundles the
same shares.
-/
import Mathlib.Data.List.SplitBy
import TigPool.CreditLedger

namespace TigPool

open Basis

/-- All that the division of credit needs: bundles are listed once, and suffice for the
qualifiers of their group. -/
structure BlockSnapshot.Divisible (snapshot : BlockSnapshot) : Prop where
  distinct : (snapshot.bundles.map fun bundle => (bundle.benchmarkId, bundle.activeIndex)).Nodup
  enough : ∀ group, (snapshot.qualifiers.lookup group).getD 0
    ≤ snapshot.bundles.countP (·.group = group)

theorem BlockSnapshot.Valid.divisible {snapshot : BlockSnapshot} (h : snapshot.Valid) :
    snapshot.Divisible :=
  ⟨h.distinct, h.enough⟩

/-! ## Awards -/

namespace EqualBundle

variable {snapshot : BlockSnapshot}

/-- The bundles of the classes, in order, are awarded. -/
theorem award_bundles {classes : List (List Bundle)} : ∀ {remaining : ℕ},
    (award remaining classes).1.map (·.1) = classes.flatten := by
  induction classes with
  | nil => intro remaining; rfl
  | cons tied rest ih =>
      intro remaining
      show (tied.map _ ++ (award _ rest).1).map _ = tied ++ rest.flatten
      rw [List.map_append, ih, List.map_map]
      congr 1
      exact List.map_id _

theorem award_left {classes : List (List Bundle)} : ∀ {remaining : ℕ},
    (award remaining classes).2 = remaining - classes.flatten.length := by
  induction classes with
  | nil => intro remaining; rfl
  | cons tied rest ih =>
      intro remaining
      show (award _ rest).2 = _
      rw [ih, List.flatten_cons, List.length_append]
      omega

/-- What is awarded and what is left is what there was. -/
theorem award_sum {classes : List (List Bundle)} : ∀ {remaining : ℕ},
    ((award remaining classes).1.map (·.2)).sum + ((award remaining classes).2 : ℚ) = remaining := by
  induction classes with
  | nil =>
      intro remaining
      exact zero_add _
  | cons tied rest ih =>
      intro remaining
      have htied : ((tied.map fun b => (b, ((min remaining tied.length : ℕ) : ℚ) / tied.length)).map
          (·.2)).sum = (min remaining tied.length : ℕ) := by
        rw [List.map_map]
        show (tied.map fun _ => ((min remaining tied.length : ℕ) : ℚ) / tied.length).sum = _
        rw [List.map_const', List.sum_replicate, nsmul_eq_mul]
        by_cases hempty : tied.length = 0
        · simp [hempty]
        · exact mul_div_cancel₀ _ (Nat.cast_ne_zero.mpr hempty)
      have hrest := @ih (remaining - min remaining tied.length)
      have hle : min remaining tied.length ≤ remaining := min_le_left ..
      show ((tied.map _ ++ (award _ rest).1).map _).sum + (((award _ rest).2 : ℕ) : ℚ) = _
      rw [List.map_append, List.sum_append, htied, add_assoc, hrest, ← Nat.cast_add,
        Nat.add_sub_cancel' hle]

theorem flatten_ranked (group : Group) :
    (ranked snapshot group).flatten.Perm (snapshot.bundles.filter (·.group = group)) := by
  rw [ranked, List.flatten_splitBy]
  exact List.perm_insertionSort ..

/-- What the bundles of a group get. -/
def groupAward (snapshot : BlockSnapshot) (group : Group) : List (Bundle × ℚ) :=
  (award ((snapshot.qualifiers.lookup group).getD 0) (ranked snapshot group)).1

theorem groupAward_bundles (group : Group) :
    ((groupAward snapshot group).map (·.1)).Perm (snapshot.bundles.filter (·.group = group)) := by
  rw [groupAward, award_bundles]
  exact flatten_ranked group

/-- A group with enough bundles can be awarded all that qualifies. -/
theorem groupCredit_eq (h : snapshot.Divisible) (group : Group) :
    groupCredit snapshot group = .ok (groupAward snapshot group) ∧
      ((groupAward snapshot group).map (·.2)).sum
        = ((snapshot.qualifiers.lookup group).getD 0 : ℕ) := by
  have hleft : (award ((snapshot.qualifiers.lookup group).getD 0) (ranked snapshot group)).2 = 0 := by
    rw [award_left, (flatten_ranked group).length_eq, ← List.countP_eq_length_filter]
    exact Nat.sub_eq_zero_of_le (h.enough group)
  refine ⟨?_, ?_⟩
  · simp only [groupCredit, bind_eq_ok, require_eq_ok, exists_const, pure_eq_ok]
    exact ⟨hleft, rfl⟩
  · have hsum := @award_sum (ranked snapshot group) ((snapshot.qualifiers.lookup group).getD 0)
    rwa [hleft, Nat.cast_zero, add_zero] at hsum

/-! ## All groups together -/

/-- What the bundles of all groups get. -/
def awards (snapshot : BlockSnapshot) : List (Bundle × ℚ) :=
  (groups snapshot).flatMap (groupAward snapshot)

theorem mem_groupAward {group : Group} {item : Bundle × ℚ} (h : item ∈ groupAward snapshot group) :
    item.1 ∈ snapshot.bundles ∧ item.1.group = group := by
  have hmem := (groupAward_bundles group).mem_iff.mp (List.mem_map_of_mem h)
  obtain ⟨hbundle, hgroup⟩ := List.mem_filter.mp hmem
  exact ⟨hbundle, of_decide_eq_true hgroup⟩

theorem mem_awards {item : Bundle × ℚ} :
    item ∈ awards snapshot ↔ item ∈ groupAward snapshot item.1.group := by
  refine ⟨fun h => ?_, fun h => ?_⟩
  · obtain ⟨group, -, hitem⟩ := List.mem_flatMap.mp h
    obtain ⟨-, rfl⟩ := mem_groupAward hitem
    exact hitem
  · refine List.mem_flatMap.mpr ⟨_, List.mem_dedup.mpr (List.mem_map.mpr ⟨item.1, ?_, rfl⟩), h⟩
    exact (mem_groupAward h).1

/-- Every bundle is awarded something, if only nothing. -/
theorem awarded {bundle : Bundle} (h : bundle ∈ snapshot.bundles) :
    ∃ credit, (bundle, credit) ∈ awards snapshot := by
  have hmem : bundle ∈ (groupAward snapshot bundle.group).map (·.1) :=
    (groupAward_bundles _).mem_iff.mpr (List.mem_filter.mpr ⟨h, decide_eq_true rfl⟩)
  obtain ⟨item, hitem, rfl⟩ := List.mem_map.mp hmem
  exact ⟨item.2, mem_awards.mpr hitem⟩

def key (bundle : Bundle) : String × ℕ :=
  (bundle.benchmarkId, bundle.activeIndex)

theorem putCredit_eq {item : Bundle × ℚ} {credits : Credits} :
    putCredit item credits = AList.insert (key item.1) item.2 credits := rfl

/-- Each bundle is awarded once. -/
theorem awards_nodup (h : snapshot.Divisible) :
    ((awards snapshot).map fun item => key item.1).Nodup := by
  have hbundles : ∀ groups : List Group, groups.Nodup →
      ((groups.flatMap (groupAward snapshot)).map (·.1)).Perm
        (snapshot.bundles.filter fun b => b.group ∈ groups) := by
    intro groups hnodup
    induction groups with
    | nil => simp
    | cons group rest ih =>
        obtain ⟨hnot, hrest⟩ := List.nodup_cons.mp hnodup
        rw [List.flatMap_cons, List.map_append]
        refine ((groupAward_bundles group).append (ih hrest)).trans ?_
        have hsplit := List.filter_append_perm (fun b : Bundle => b.group = group)
          (snapshot.bundles.filter fun b => b.group ∈ group :: rest)
        refine List.Perm.trans (List.Perm.of_eq ?_) hsplit
        rw [List.filter_filter, List.filter_filter]
        congr 1
        · refine List.filter_congr fun b _ => ?_
          by_cases h : b.group = group <;> simp [h]
        · refine List.filter_congr fun b _ => ?_
          by_cases h : b.group = group
          · simp [h, hnot]
          · simp [h]
  have hperm := hbundles (groups snapshot) (List.nodup_dedup _)
  have hmap : (awards snapshot).map (fun item => key item.1)
      = ((awards snapshot).map (·.1)).map key := by
    rw [List.map_map]
    rfl
  rw [hmap]
  refine ((hperm.map key).nodup_iff).mpr ?_
  exact (List.filter_sublist.map key).nodup h.distinct

/-! ## The table of credits -/

theorem lookup_putCredit {items : List (Bundle × ℚ)} {k : String × ℕ}
    (hfresh : ∀ item ∈ items, key item.1 ≠ k) :
    (items.foldr putCredit ∅).lookup k = none := by
  induction items with
  | nil => rfl
  | cons item rest ih =>
      rw [List.foldr_cons, putCredit_eq,
        AList.lookup_insert_ne (Ne.symm (hfresh item (List.mem_cons_self ..)))]
      exact ih fun item hitem => hfresh item (List.mem_cons_of_mem _ hitem)

/-- Credits of different bundles do not get in each other's way. -/
theorem putCredit_spec {items : List (Bundle × ℚ)} (h : (items.map fun item => key item.1).Nodup) :
    (∀ item ∈ items, (items.foldr putCredit ∅).lookup (key item.1) = some item.2) ∧
      Table.total (fun _ credit => credit) (items.foldr putCredit ∅) = (items.map (·.2)).sum := by
  induction items with
  | nil => exact ⟨fun item hitem => (by cases hitem), rfl⟩
  | cons item rest ih =>
      obtain ⟨hnot, hrest⟩ := List.nodup_cons.mp h
      obtain ⟨hlookup, hsum⟩ := ih hrest
      have hfresh : ∀ other ∈ rest, key other.1 ≠ key item.1 := fun other hother heq =>
        hnot (List.mem_map.mpr ⟨other, hother, heq⟩)
      refine ⟨fun other hother => ?_, ?_⟩
      · rw [List.foldr_cons, putCredit_eq]
        rcases List.mem_cons.mp hother with rfl | hother
        · exact AList.lookup_insert _
        · rw [AList.lookup_insert_ne (hfresh other hother)]
          exact hlookup other hother
      · rw [List.foldr_cons, putCredit_eq, Table.total_insert_fresh (lookup_putCredit hfresh), hsum,
          List.map_cons, List.sum_cons]

/-- What qualifies in the groups of the bundles is all that qualifies. -/
theorem sum_groups (h : snapshot.Divisible) :
    ((groups snapshot).map fun group => (snapshot.qualifiers.lookup group).getD 0).sum
      = snapshot.qualifiers.total fun _ count => count := by
  have hkeys : (snapshot.qualifiers.keys.map fun group =>
      (snapshot.qualifiers.lookup group).getD 0).sum = snapshot.qualifiers.total fun _ count => count :=
    Table.sum_keys_eq_total fun group count hcount => by rw [hcount]; rfl
  rw [← hkeys, groups, ← List.sum_toFinset _ (List.nodup_dedup _),
    ← List.sum_toFinset _ (AList.keys_nodup _)]
  have hunion : ∀ {xs ys : Finset Group},
      (∀ group ∈ ys, group ∉ xs → (snapshot.qualifiers.lookup group).getD 0 = 0) →
      ∑ group ∈ xs, (snapshot.qualifiers.lookup group).getD 0
        = ∑ group ∈ xs ∪ ys, (snapshot.qualifiers.lookup group).getD 0 := by
    intro xs ys hzero
    refine Finset.sum_subset Finset.subset_union_left fun group hmem hnot => ?_
    exact hzero group ((Finset.mem_union.mp hmem).resolve_left hnot) hnot
  rw [@hunion _ snapshot.qualifiers.keys.toFinset, Finset.union_comm, ← @hunion]
  · intro group _ hnot
    rw [List.mem_toFinset, ← AList.mem_keys, ← AList.lookup_eq_none] at hnot
    rw [hnot]
    rfl
  · intro group _ hnot
    -- A group without bundles has nothing that qualifies.
    have hle := h.enough group
    rw [List.countP_eq_zero.mpr] at hle
    · exact Nat.le_zero.mp hle
    · intro bundle hbundle hgroup
      refine hnot (List.mem_toFinset.mpr (List.mem_dedup.mpr ?_))
      exact List.mem_map.mpr ⟨bundle, hbundle, of_decide_eq_true hgroup⟩

end EqualBundle

open EqualBundle

/-- Both checks pass, and every group gets what it is awarded. -/
theorem equalBundleCredit_awards {snapshot : BlockSnapshot} (h : snapshot.Divisible) :
    equalBundleCredit snapshot = .ok ((awards snapshot).foldr putCredit ∅) := by
  have hparts : ∀ names : List Group,
      names.mapM (groupCredit snapshot) = .ok (names.map (groupAward snapshot)) := by
    intro names
    induction names with
    | nil => rfl
    | cons group rest ih =>
        rw [List.mapM_cons, (groupCredit_eq h group).1, ih]
        rfl
  simp only [equalBundleCredit, bind_eq_ok, require_eq_ok, exists_const, pure_eq_ok]
  refine ⟨_, hparts _, ?_, rfl⟩
  show Table.total _ ((awards snapshot).foldr putCredit ∅) = _
  rw [(putCredit_spec (awards_nodup h)).2, ← sum_groups h, awards]
  induction groups snapshot with
  | nil => rfl
  | cons group rest ih =>
      rw [List.flatMap_cons, List.map_append, List.sum_append, ih, (groupCredit_eq h group).2,
        List.map_cons, List.sum_cons, Nat.cast_add]

/-- A validated block divides its credit, among all of its bundles. -/
theorem equalBundleCredit_eq {snapshot : BlockSnapshot} (h : snapshot.Divisible) :
    ∃ credits, equalBundleCredit snapshot = .ok credits ∧
      ∀ bundle credit, (bundle, credit) ∈ groupAward snapshot bundle.group →
        credits.lookup (key bundle) = some credit :=
  ⟨_, equalBundleCredit_awards h, fun bundle credit hitem =>
    (putCredit_spec (awards_nodup h)).1 (bundle, credit) (mem_awards.mpr hitem)⟩

/-! ## One player -/

namespace BlockSnapshot

variable {snapshot replay : BlockSnapshot} {playerId : String}

/-- Two snapshots say the same about a player: which bundles and benchmarks are the
player's, how many qualify, what the player's feed says, and what credit each bundle gets. -/
structure Agree (playerId : String) (snapshot replay : BlockSnapshot) : Prop where
  bundles : replay.bundles.filter (·.playerId = playerId)
    = snapshot.bundles.filter (·.playerId = playerId)
  qualifiers : ∀ group : Group, group.1 = playerId →
    replay.qualifiers.lookup group = snapshot.qualifiers.lookup group
  precommits : ∀ benchmarkId, replay.precommits.lookup benchmarkId = some playerId ↔
    snapshot.precommits.lookup benchmarkId = some playerId
  feed : replay.feeds.lookup playerId = snapshot.feeds.lookup playerId
  credit : ∃ credits credits', equalBundleCredit snapshot = .ok credits ∧
    equalBundleCredit replay = .ok credits' ∧
    ∀ bundle ∈ snapshot.bundles, bundle.playerId = playerId → ∃ credit,
      credits.lookup (key bundle) = some credit ∧ credits'.lookup (key bundle) = some credit

/-- What is left after a compaction is valid, too. -/
theorem Valid.compact (h : snapshot.Valid) : (snapshot.compact playerId).Valid where
  owners bundle hbundle := by
    obtain ⟨hmem, hplayer⟩ := List.mem_filter.mp hbundle
    exact Table.lookup_filter.mpr ⟨h.owners bundle hmem, hplayer⟩
  distinct := (List.filter_sublist.map _).nodup h.distinct
  enough group := by
    by_cases hplayer : group.1 = playerId
    · have hcount : (snapshot.compact playerId).bundles.countP (·.group = group)
          = snapshot.bundles.countP (·.group = group) := by
        rw [BlockSnapshot.compact, List.countP_filter]
        refine List.countP_congr fun b _ => ?_
        simp only [Bool.and_eq_true, decide_eq_true_eq, and_iff_left_iff_imp]
        rintro rfl
        exact hplayer
      rw [hcount]
      refine le_trans ?_ (h.enough group)
      cases hlookup : (snapshot.compact playerId).qualifiers.lookup group with
      | none => exact Nat.zero_le _
      | some count =>
          rw [(Table.lookup_filter.mp hlookup).1]
    · have hnone : (snapshot.compact playerId).qualifiers.lookup group = none := by
        cases hlookup : (snapshot.compact playerId).qualifiers.lookup group with
        | none => rfl
        | some count => exact absurd (of_decide_eq_true (Table.lookup_filter.mp hlookup).2) hplayer
      rw [hnone]
      exact Nat.zero_le _

theorem Agree.refl (h : snapshot.Valid) : snapshot.Agree playerId snapshot where
  bundles := rfl
  qualifiers _ _ := rfl
  precommits _ := Iff.rfl
  feed := rfl
  credit := by
    obtain ⟨credits, hcredits, hlookup⟩ := equalBundleCredit_eq h.divisible
    refine ⟨credits, credits, hcredits, hcredits, fun bundle hbundle _ => ?_⟩
    obtain ⟨credit, hcredit⟩ := awarded hbundle
    have hitem := hlookup bundle credit (mem_awards.mp hcredit)
    exact ⟨credit, hitem, hitem⟩

/-- A filter that keeps a key keeps its row. -/
theorem lookup_filter_key {α : Type} {κ : Type} [DecidableEq κ] {t : Table κ α} {p : κ → Bool}
    {k : κ} (hk : p k = true) : (Table.filter (fun k _ => p k) t).lookup k = t.lookup k := by
  refine Option.ext fun a => ?_
  rw [Table.lookup_filter]
  exact and_iff_left hk

/-- The compact copy for a player says what the block says of the player. -/
theorem agree_compact (h : snapshot.Valid) : Agree playerId snapshot (snapshot.compact playerId) where
  bundles := by
    rw [compact, List.filter_filter]
    exact List.filter_congr fun b _ => by simp
  qualifiers _ hplayer := lookup_filter_key (by simpa using hplayer)
  precommits benchmarkId := by
    rw [← mem_ownedBy, ← mem_ownedBy]
    exact mem_compact_ownedBy
  feed := lookup_filter_key (by simp)
  credit := by
    obtain ⟨credits, hcredits, hlookup⟩ := equalBundleCredit_eq h.divisible
    obtain ⟨credits', hcredits', hlookup'⟩ := equalBundleCredit_eq
      (@Valid.compact _ playerId h).divisible
    refine ⟨credits, credits', hcredits, hcredits', fun bundle hbundle hplayer => ?_⟩
    have hranked : ranked (snapshot.compact playerId) bundle.group = ranked snapshot bundle.group := by
      rw [ranked, ranked, compact, List.filter_filter]
      congr 2
      refine List.filter_congr fun b _ => ?_
      by_cases hgroup : b.group = bundle.group
      · have hsame : b.playerId = bundle.playerId := congrArg (·.1) hgroup
        simp [hgroup, hsame, hplayer]
      · simp [hgroup]
    have hsame : groupAward (snapshot.compact playerId) bundle.group
        = groupAward snapshot bundle.group := by
      rw [groupAward, groupAward, hranked, compact, @lookup_filter_key _ _ _ _ _ bundle.group
        (decide_eq_true hplayer)]
    obtain ⟨credit, hcredit⟩ := awarded hbundle
    have hitem := mem_awards.mp hcredit
    exact ⟨credit, hlookup bundle credit hitem, hlookup' bundle credit (by rwa [hsame])⟩

end BlockSnapshot

/-- What is read of a saved block says of a player what was saved of it, whether it is read from
the capture or from a copy for that player. -/
theorem BlockStore.read_agrees {db : Db} {id playerId : String} {b : ObservedBlock}
    {replay : BlockSnapshot} (hb : db.observation.blocks.lookup id = some b)
    (hvalid : b.snapshot.Valid)
    (hplayer : ∀ copy, db.observation.archive.compactBlockCopies.lookup id = some copy →
      copy.playerId = playerId)
    (h : BlockStore.read db id = .ok replay) : b.snapshot.Agree playerId replay := by
  simp only [BlockStore.read, bind_eq_ok, require_eq_ok, exists_const, fetch_eq_ok] at h
  obtain ⟨b₀, hb₀, -, h⟩ := h
  obtain rfl := Option.some.inj (hb.symm.trans hb₀)
  cases hcopy : db.observation.archive.compactBlockCopies.lookup id with
  | some copy =>
      simp only [hcopy, bind_eq_ok, require_eq_ok, exists_const, pure_eq_ok] at h
      obtain ⟨-, rfl⟩ := h
      rw [hplayer copy hcopy]
      exact BlockSnapshot.agree_compact hvalid
  | none =>
      simp only [hcopy, bind_eq_ok, require_eq_ok, exists_const, fetch_eq_ok, pure_eq_ok] at h
      obtain ⟨attempt, -, -, -, rfl⟩ := h
      exact BlockSnapshot.Agree.refl hvalid

end TigPool
