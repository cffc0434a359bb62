/-
# `TigPool.BundleCredit` — equal bundle credit, characterised

What a validated observation says suffices for `equal_bundle_credit`: every group has at
least as many bundles as qualify, so both of its checks always pass.  What it computes are
the only fractions that divide the qualifiers of every group among its bundles by merit,
with the bundles at the cut-off sharing equally.
-/
import TigPool.Basis.Cutoff
import TigPool.PoolView
import TigPool.Protocol

namespace TigPool

open Basis

/-! ## Classes of equal quality -/

namespace EqualBundle

/-- Classes of equal quality, the best first. -/
structure Ranks (classes : List (List Bundle)) : Prop where
  level : ∀ tied ∈ classes, ∀ a ∈ tied, ∀ b ∈ tied, a.quality = b.quality
  falls : classes.Pairwise fun tied worse => ∀ a ∈ tied, ∀ b ∈ worse, b.quality < a.quality

theorem Ranks.tail {tied : List Bundle} {rest : List (List Bundle)} (h : Ranks (tied :: rest)) :
    Ranks rest where
  level class' hmem := h.level class' (List.mem_cons_of_mem _ hmem)
  falls := (List.pairwise_cons.mp h.falls).2

theorem Ranks.behind {tied : List Bundle} {rest : List (List Bundle)} (h : Ranks (tied :: rest))
    {a b : Bundle} (ha : a ∈ tied) (hb : b ∈ rest.flatten) : b.quality < a.quality := by
  obtain ⟨worse, hworse, hb⟩ := List.mem_flatten.mp hb
  exact (List.pairwise_cons.mp h.falls).1 worse hworse a ha b hb

theorem precedes_trans {a b c : Bundle} (hab : precedes a b) (hbc : precedes b c) :
    precedes a c := by
  rcases hab with hab | ⟨hab, hab'⟩
  · rcases hbc with hbc | ⟨hbc, -⟩
    · exact Or.inl (hbc.trans hab)
    · exact Or.inl (hbc ▸ hab)
  · rcases hbc with hbc | ⟨hbc, hbc'⟩
    · exact Or.inl (hab ▸ hbc)
    · refine Or.inr ⟨hab.trans hbc, ?_⟩
      rcases hab' with hab' | ⟨hab', hle⟩
      · rcases hbc' with hbc' | ⟨hbc', -⟩
        · exact Or.inl (hab'.trans hbc')
        · exact Or.inl (hbc' ▸ hab')
      · rcases hbc' with hbc' | ⟨hbc', hle'⟩
        · exact Or.inl (hab' ▸ hbc')
        · exact Or.inr ⟨hab'.trans hbc', hle.trans hle'⟩

theorem precedes_total (a b : Bundle) : precedes a b ∨ precedes b a := by
  rcases lt_trichotomy a.quality b.quality with h | h | h
  · exact Or.inr (Or.inl h)
  · rcases lt_trichotomy a.benchmarkId b.benchmarkId with h' | h' | h'
    · exact Or.inl (Or.inr ⟨h, Or.inl h'⟩)
    · rcases le_total a.activeIndex b.activeIndex with h'' | h''
      · exact Or.inl (Or.inr ⟨h, Or.inr ⟨h', h''⟩⟩)
      · exact Or.inr (Or.inr ⟨h.symm, Or.inr ⟨h'.symm, h''⟩⟩)
    · exact Or.inr (Or.inr ⟨h.symm, Or.inl h'⟩)
  · exact Or.inl (Or.inl h)

instance : IsTrans Bundle precedes := ⟨fun _ _ _ => precedes_trans⟩

instance : Std.Total precedes := ⟨precedes_total⟩

theorem precedes.quality_le {a b : Bundle} (h : precedes a b) : b.quality ≤ a.quality := by
  rcases h with h | ⟨h, -⟩
  · exact h.le
  · exact h.ge

/-- Neighbouring classes differ, and nothing rises, so every class is behind the last. -/
theorem ranks_of_chain {classes : List (List Bundle)}
    (hlevel : ∀ tied ∈ classes, ∀ a ∈ tied, ∀ b ∈ tied, a.quality = b.quality)
    (hfalls : classes.flatten.Pairwise fun a b => b.quality ≤ a.quality)
    (hdiffer : classes.IsChain fun tied worse =>
      ∃ ha hb, (tied.getLast ha).quality ≠ (worse.head hb).quality) : Ranks classes := by
  induction classes with
  | nil => exact ⟨hlevel, List.Pairwise.nil⟩
  | cons tied rest ih =>
      rw [List.flatten_cons, List.pairwise_append] at hfalls
      obtain ⟨-, hrest, hacross⟩ := hfalls
      have htail := ih (fun class' hmem => hlevel class' (List.mem_cons_of_mem _ hmem)) hrest
        hdiffer.tail
      refine ⟨hlevel, List.pairwise_cons.mpr ⟨fun worse hworse a ha b hb => ?_, htail.falls⟩⟩
      obtain _ | ⟨next, others⟩ := rest
      · cases hworse
      · obtain ⟨hne, hne', hlast⟩ := (List.isChain_cons_cons.mp hdiffer).1
        have hhead := List.head_mem hne'
        have hle := hacross _ (List.getLast_mem hne) _
          (List.mem_flatten.mpr ⟨next, List.mem_cons_self .., hhead⟩)
        have hlt : (next.head hne').quality < a.quality := by
          rw [hlevel tied (List.mem_cons_self ..) a ha _ (List.getLast_mem hne)]
          exact hle.lt_of_ne hlast.symm
        refine lt_of_le_of_lt ?_ hlt
        -- What follows the head of the next class is no better than that head.
        rcases List.mem_cons.mp hworse with rfl | hother
        · exact (hlevel _ (List.mem_cons_of_mem _ (List.mem_cons_self ..)) b hb _ hhead).le
        · exact ((List.pairwise_cons.mp htail.falls).1 worse hother _ hhead b hb).le

theorem ranked_ranks (snapshot : BlockSnapshot) (group : Group) :
    Ranks (ranked snapshot group) := by
  refine ranks_of_chain (fun tied htied a ha b hb => ?_) ?_ ?_
  · have hchain := List.isChain_of_mem_splitBy htied
    have hequal : tied.Pairwise fun a b => a.quality = b.quality := by
      exact List.isChain_iff_pairwise.mp (hchain.imp fun _ _ => of_decide_eq_true)
    have hsymm : Std.Symm fun a b : Bundle => a.quality = b.quality := ⟨fun _ _ => Eq.symm⟩
    by_cases hab : a = b
    · rw [hab]
    · exact hequal.forall ha hb hab
  · rw [ranked, List.flatten_splitBy]
    have hsorted := List.pairwise_insertionSort
      (r := precedes) (snapshot.bundles.filter (·.group = group))
    exact hsorted.imp precedes.quality_le
  · refine (List.isChain_getLast_head_splitBy _ _).imp ?_
    rintro tied worse ⟨ha, hb, hne⟩
    exact ⟨ha, hb, of_decide_eq_false hne⟩

/-! ## What a class gets -/

/-- The classes share the places by merit. -/
theorem award_cutoff {classes : List (List Bundle)} : ∀ {remaining : ℕ}, Ranks classes →
    (∀ item ∈ (award remaining classes).1, 0 ≤ item.2 ∧ item.2 ≤ 1) ∧
    (∀ a ∈ (award remaining classes).1, ∀ b ∈ (award remaining classes).1,
      a.1.quality = b.1.quality → a.2 = b.2) ∧
    (∀ a ∈ (award remaining classes).1, ∀ b ∈ (award remaining classes).1,
      b.1.quality < a.1.quality → a.2 < 1 → b.2 = 0) ∧
    (remaining = 0 → ∀ item ∈ (award remaining classes).1, item.2 = 0) := by
  induction classes with
  | nil =>
      intro remaining _
      refine ⟨?_, ?_, ?_, fun _ => ?_⟩ <;> exact fun item hitem => by cases hitem
  | cons tied rest ih =>
      intro remaining hranks
      obtain ⟨hrange, hties, hcut, hzero⟩ :=
        @ih (remaining - min remaining tied.length) hranks.tail
      have hlevel := hranks.level tied (List.mem_cons_self ..)
      -- An item is one of the first class, with its share, or one of the rest.
      have hcases : ∀ item ∈ (award remaining (tied :: rest)).1,
          (item.1 ∈ tied ∧ item.2 = ((min remaining tied.length : ℕ) : ℚ) / tied.length) ∨
            (item.1 ∈ rest.flatten ∧
              item ∈ (award (remaining - min remaining tied.length) rest).1) := by
        intro item hitem
        rcases List.mem_append.mp hitem with hitem | hitem
        · obtain ⟨b, hb, rfl⟩ := List.mem_map.mp hitem
          exact Or.inl ⟨hb, rfl⟩
        · refine Or.inr ⟨?_, hitem⟩
          rw [← @award_bundles rest (remaining - min remaining tied.length)]
          exact List.mem_map_of_mem hitem
      refine ⟨fun item hitem => ?_, fun a ha b hb hab => ?_, fun a ha b hb hab hlt => ?_,
        fun hnone item hitem => ?_⟩
      · rcases hcases item hitem with ⟨-, hshare⟩ | ⟨-, hitem⟩
        · rw [hshare]
          refine ⟨div_nonneg (Nat.cast_nonneg _) (Nat.cast_nonneg _), div_le_one_of_le₀ ?_ ?_⟩
          · exact Nat.cast_le.mpr (min_le_right ..)
          · exact Nat.cast_nonneg _
        · exact hrange item hitem
      · rcases hcases a ha with ⟨ha, hshare⟩ | ⟨ha, ha'⟩
        · rcases hcases b hb with ⟨-, hshare'⟩ | ⟨hb, -⟩
          · rw [hshare, hshare']
          · exact absurd hab (hranks.behind ha hb).ne'
        · rcases hcases b hb with ⟨hb, -⟩ | ⟨-, hb'⟩
          · exact absurd hab (hranks.behind hb ha).ne
          · exact hties a ha' b hb' hab
      · rcases hcases b hb with ⟨hb, -⟩ | ⟨hb, hb'⟩
        · -- Nothing is better than the first class.
          rcases hcases a ha with ⟨ha, -⟩ | ⟨ha, -⟩
          · exact absurd (hlevel a.1 ha b.1 hb) hab.ne'
          · exact absurd hab (hranks.behind hb ha).not_gt
        · rcases hcases a ha with ⟨ha, hshare⟩ | ⟨-, ha'⟩
          · refine hzero ?_ b hb'
            -- The first class has less than it could take, so it took all there was.
            rw [hshare, div_lt_one (Nat.cast_pos.mpr (List.length_pos_of_mem ha)),
              Nat.cast_lt] at hlt
            omega
          · exact hcut a ha' b hb' hab hlt
      · rcases hcases item hitem with ⟨-, hshare⟩ | ⟨-, hitem⟩
        · rw [hshare, hnone, Nat.zero_min, Nat.cast_zero, zero_div]
        · exact hzero (by rw [hnone, Nat.zero_sub]) item hitem

/-! ## What a block gets -/

/-- What a bundle is credited with. -/
def creditOf (credits : Credits) (bundle : Bundle) : ℚ :=
  (credits.lookup (key bundle)).getD 0

/-- The bundles of a group. -/
def inGroup (snapshot : BlockSnapshot) (group : Group) : List Bundle :=
  snapshot.bundles.filter (·.group = group)

/-- Credit goes to the bundles of the block and to nothing else, and the bundles of every
group share what qualifies by their quality. -/
structure Divides (snapshot : BlockSnapshot) (credits : Credits) : Prop where
  domain : ∀ k, k ∈ credits ↔ k ∈ snapshot.bundles.map key
  shares : ∀ group, Cutoff Bundle.quality (inGroup snapshot group)
    ((snapshot.qualifiers.lookup group).getD 0) (creditOf credits)

variable {snapshot : BlockSnapshot} {credits : Credits}

theorem Divides.lookup (h : Divides snapshot credits) {bundle : Bundle}
    (hbundle : bundle ∈ snapshot.bundles) :
    credits.lookup (key bundle) = some (creditOf credits bundle) := by
  have hmem := (h.domain (key bundle)).mpr (List.mem_map_of_mem hbundle)
  obtain ⟨credit, hcredit⟩ := Option.isSome_iff_exists.mp (AList.lookup_isSome.mpr hmem)
  rw [creditOf, hcredit]
  rfl

/-- There is only one such division. -/
theorem Divides.unique {credits' : Credits} (h : Divides snapshot credits)
    (h' : Divides snapshot credits') (k : String × ℕ) : credits'.lookup k = credits.lookup k := by
  by_cases hk : k ∈ snapshot.bundles.map key
  · obtain ⟨bundle, hbundle, rfl⟩ := List.mem_map.mp hk
    have hgroup : bundle ∈ inGroup snapshot bundle.group :=
      List.mem_filter.mpr ⟨hbundle, decide_eq_true rfl⟩
    rw [h.lookup hbundle, h'.lookup hbundle,
      (h.shares bundle.group).unique (h'.shares bundle.group) bundle hgroup]
  · have hnot : k ∉ credits := fun hmem => hk ((h.domain k).mp hmem)
    have hnot' : k ∉ credits' := fun hmem => hk ((h'.domain k).mp hmem)
    rw [AList.lookup_eq_none.mpr hnot, AList.lookup_eq_none.mpr hnot']

/-- The rule computes it. -/
theorem awards_divides (h : snapshot.Divisible) :
    Divides snapshot ((awards snapshot).foldr putCredit ∅) := by
  have hlookup := (putCredit_spec (awards_nodup h)).1
  have hcredit : ∀ {group item}, item ∈ groupAward snapshot group →
      creditOf ((awards snapshot).foldr putCredit ∅) item.1 = item.2 := by
    intro group item hitem
    obtain ⟨-, rfl⟩ := mem_groupAward hitem
    rw [creditOf, hlookup item (mem_awards.mpr hitem)]
    rfl
  constructor
  · intro k
    constructor
    · intro hmem
      by_contra hnot
      have hfresh : ∀ item ∈ awards snapshot, key item.1 ≠ k := by
        rintro item hitem rfl
        exact hnot (List.mem_map_of_mem (mem_groupAward (mem_awards.mp hitem)).1)
      exact AList.lookup_eq_none.mp (lookup_putCredit hfresh) hmem
    · intro hmem
      obtain ⟨bundle, hbundle, rfl⟩ := List.mem_map.mp hmem
      obtain ⟨credit, hitem⟩ := awarded hbundle
      exact AList.lookup_isSome.mp (by rw [hlookup _ hitem]; rfl)
  · intro group
    obtain ⟨hrange, hties, hcut, -⟩ :=
      @award_cutoff _ ((snapshot.qualifiers.lookup group).getD 0) (ranked_ranks snapshot group)
    have hitem : ∀ {bundle}, bundle ∈ inGroup snapshot group → ∃ item ∈ groupAward snapshot group,
        item.1 = bundle ∧ creditOf ((awards snapshot).foldr putCredit ∅) bundle = item.2 := by
      intro bundle hbundle
      obtain ⟨item, hitem, rfl⟩ := List.mem_map.mp ((groupAward_bundles group).mem_iff.mpr hbundle)
      exact ⟨item, hitem, rfl, hcredit hitem⟩
    constructor
    · intro a ha
      obtain ⟨item, hmem, -, heq⟩ := hitem ha
      rw [heq]
      exact (hrange item hmem).1
    · intro a ha
      obtain ⟨item, hmem, -, heq⟩ := hitem ha
      rw [heq]
      exact (hrange item hmem).2
    · rw [← (groupCredit_eq h group).2, inGroup,
        ← ((groupAward_bundles group).map (creditOf _)).sum_eq, List.map_map]
      refine congrArg List.sum (List.map_congr_left fun item hmem => ?_)
      exact hcredit hmem
    · intro a ha b hb hab
      obtain ⟨item, hmem, rfl, heq⟩ := hitem ha
      obtain ⟨item', hmem', rfl, heq'⟩ := hitem hb
      rw [heq, heq']
      exact hties item hmem item' hmem' hab
    · intro a ha b hb hab hlt
      obtain ⟨item, hmem, rfl, heq⟩ := hitem ha
      obtain ⟨item', hmem', rfl, heq'⟩ := hitem hb
      rw [heq] at hlt
      rw [heq']
      exact hcut item hmem item' hmem' hab hlt

end EqualBundle

/-! ## Validated observations -/

namespace Protocol

open EqualBundle

theorem scoredBundles_spec {bundle : Bundle} {scores : List Json} {bundles : List Bundle}
    (h : scoredBundles bundle scores = .ok bundles) :
    (∀ b ∈ bundles, b.benchmarkId = bundle.benchmarkId ∧ b.playerId = bundle.playerId) ∧
      (bundles.map (·.activeIndex)).Nodup := by
  constructor
  · intro b hb
    obtain ⟨score, -, hscore⟩ := mem_of_mapM_ok h b hb
    simp only [bind_eq_ok, pure_eq_ok] at hscore
    obtain ⟨quality, -, rfl⟩ := hscore
    exact ⟨rfl, rfl⟩
  · have hindices : bundles.map (·.activeIndex) = scores.zipIdx.map (·.2) := by
      refine map_of_mapM_ok (fun score b hscore => ?_) h
      simp only [bind_eq_ok, pure_eq_ok] at hscore
      obtain ⟨quality, -, rfl⟩ := hscore
      rfl
    rw [hindices, List.zipIdx_map_snd]
    exact List.nodup_range'

/-- The bundles of a benchmark are its own, its player's, and numbered. -/
theorem benchmarkBundles_spec {header : Header} {records : Records}
    {algorithms challenges : Table String Json} {benchmarkId : String} {bundles : List Bundle}
    (h : benchmarkBundles header records algorithms challenges benchmarkId = .ok bundles) :
    (∀ bundle ∈ bundles, bundle.benchmarkId = benchmarkId ∧ ∃ precommit,
      records.precommits.lookup benchmarkId = some precommit ∧
        ownerOf precommit = bundle.playerId) ∧ (bundles.map (·.activeIndex)).Nodup := by
  simp only [benchmarkBundles, bind_eq_ok, fetch_eq_ok] at h
  obtain ⟨precommit, hprecommit, benchmark, -, proof, -, -, -, settings, -, tracks, -, preDetails,
    -, benchmarkDetails, -, scores, -, trackName, -, isActive, -, h⟩ := h
  split at h
  · obtain ⟨common, hcommon, h⟩ := bind_eq_ok.mp h
    simp only [bundleOf, bind_eq_ok, pure_eq_ok] at hcommon
    obtain ⟨challengeId, -, algorithmId, -, track, -, trackId, -, rfl⟩ := hcommon
    obtain ⟨hown, hindices⟩ := scoredBundles_spec h
    exact ⟨fun b hb => ⟨(hown b hb).1, precommit, hprecommit, (hown b hb).2.symm⟩, hindices⟩
  · rw [pure_eq_ok] at h
    rw [← h]
    exact ⟨List.forall_mem_nil _, List.nodup_nil⟩

/-- Different benchmarks have different bundles. -/
theorem flatten_distinct {read : String → Result (List Bundle)} {ids : List String}
    (hread : ∀ identity bundles, read identity = .ok bundles →
      (∀ bundle ∈ bundles, bundle.benchmarkId = identity) ∧ (bundles.map (·.activeIndex)).Nodup)
    (hids : ids.Nodup) : ∀ {parts}, ids.mapM read = .ok parts →
      (∀ bundle ∈ parts.flatten, bundle.benchmarkId ∈ ids) ∧ (parts.flatten.map key).Nodup := by
  induction ids with
  | nil =>
      intro parts h
      rw [List.mapM_nil, pure_eq_ok] at h
      rw [← h]
      exact ⟨List.forall_mem_nil _, List.nodup_nil⟩
  | cons identity rest ih =>
      intro parts h
      simp only [List.mapM_cons, bind_eq_ok, pure_eq_ok] at h
      obtain ⟨bundles, hbundles, parts, hparts, rfl⟩ := h
      obtain ⟨hnot, hrest⟩ := List.nodup_cons.mp hids
      obtain ⟨hown, hindices⟩ := hread identity bundles hbundles
      obtain ⟨hothers, hnodup⟩ := ih hrest hparts
      refine ⟨fun bundle hbundle => ?_, ?_⟩
      · rcases List.mem_append.mp hbundle with hmem | hmem
        · exact List.mem_cons.mpr (Or.inl (hown bundle hmem))
        · exact List.mem_cons_of_mem _ (hothers bundle hmem)
      · rw [List.flatten_cons, List.map_append, List.nodup_append]
        refine ⟨?_, hnodup, ?_⟩
        · have hindex : bundles.map (·.activeIndex) = (bundles.map key).map (·.2) := by
            rw [List.map_map]
            rfl
          rw [hindex] at hindices
          exact hindices.of_map _
        · intro k hk k' hk' heq
          obtain ⟨bundle, hbundle, rfl⟩ := List.mem_map.mp hk
          obtain ⟨bundle', hbundle', rfl⟩ := List.mem_map.mp hk'
          have hsame : bundle.benchmarkId = bundle'.benchmarkId := congrArg (·.1) heq
          rw [hown bundle hbundle] at hsame
          exact hnot (hsame ▸ hothers bundle' hbundle')

/-- Every count that is kept was checked against the bundles there are. -/
theorem readQualifiers_spec {algorithms challenges opow : Table String Json}
    {bundles : List Bundle} {scope : Option String} {qualifiers : Table Group ℕ}
    (h : readQualifiers algorithms challenges opow bundles scope = .ok qualifiers) (group : Group) :
    (qualifiers.lookup group).getD 0 ≤ bundles.countP (·.group = group) := by
  simp only [readQualifiers, bind_eq_ok, require_eq_ok, exists_const, pure_eq_ok] at h
  obtain ⟨rows, -, henough, -, -, -, -, -, -, rfl⟩ := h
  have hfold : ∀ {kept : List (Group × ℕ)} {t : Table Group ℕ},
      (∀ row ∈ kept, row.2 ≤ bundles.countP (·.group = row.1)) →
      (t.lookup group).getD 0 ≤ bundles.countP (·.group = group) →
      ((kept.foldl (fun qualifiers row => AList.insert row.1 row.2 qualifiers) t).lookup
        group).getD 0 ≤ bundles.countP (·.group = group) := by
    intro kept
    induction kept with
    | nil => exact fun _ ht => ht
    | cons row rest ih =>
        intro t hkept ht
        refine ih (fun row hrow => hkept row (List.mem_cons_of_mem _ hrow)) ?_
        rw [Table.lookup_insert_eq]
        split
        next heq =>
          rw [heq]
          exact hkept row (List.mem_cons_self ..)
        next => exact ht
  refine hfold (fun row hrow => ?_) (Nat.zero_le _)
  obtain ⟨hrow, hscope⟩ := List.mem_filter.mp hrow
  exact henough row hrow hscope

theorem activeIds_nodup {observation details active : Json} {scope : Option String}
    {kind : String} {ids : List String}
    (h : activeIds observation details active scope kind = .ok ids) : ids.Nodup := by
  simp only [activeIds, bind_eq_ok, require_eq_ok, exists_const, pure_eq_ok] at h
  obtain ⟨value, -, values, -, ids', -, counts, -, expected, -, hnodup, -, -, rfl⟩ := h
  exact hnodup

theorem readHeader_spec {observation : Json} {scope : Option String} {header : Header}
    (h : readHeader observation scope = .ok header) : header.benchmark.Nodup := by
  simp only [readHeader, bind_eq_ok, require_eq_ok, exists_const, pure_eq_ok] at h
  obtain ⟨start, -, block, -, stop, -, block', -, -, -, -, -, details, -, -, -, blockId, -, -,
    height, -, round, -, timestamp, -, previous, -, data, -, active, -, -, -, benchmark, hids, opow,
    -, code, -, challenge, -, rfl⟩ := h
  exact activeIds_nodup hids

/-- What `validate_snapshot` has made sure of suffices for dividing credit. -/
theorem validateBlock_valid {observation : Json} {scope : Option String} {snapshot : Snapshot}
    (h : validateBlock observation scope = .ok snapshot) (feeds : Table String Json) :
    (snapshot.credited feeds).Valid := by
  simp only [validateBlock, bind_eq_ok, require_eq_ok, exists_const, pure_eq_ok] at h
  obtain ⟨header, hheader, response, -, value, -, codes, -, response', -, value', -, challengeRows,
    -, response'', -, value'', -, opowRows, -, algorithms, -, challenges, -, opow, -, players, -,
    records, -, -, -, parts, hparts, qualifiers, hqualifiers, rfl⟩ := h
  have hids : (header.benchmark.insertionSort (· ≤ ·)).Nodup :=
    (List.perm_insertionSort ..).nodup_iff.mpr (readHeader_spec hheader)
  obtain ⟨hown, hdistinct⟩ := flatten_distinct (fun identity bundles hread =>
    ⟨fun b hb => ((benchmarkBundles_spec hread).1 b hb).1, (benchmarkBundles_spec hread).2⟩)
    hids hparts
  refine ⟨fun bundle hbundle => ?_, hdistinct, readQualifiers_spec hqualifiers⟩
  obtain ⟨part, hpart, hmem⟩ := List.mem_flatten.mp hbundle
  obtain ⟨identity, -, hread⟩ := mem_of_mapM_ok hparts part hpart
  obtain ⟨rfl, precommit, hprecommit, howner⟩ := (benchmarkBundles_spec hread).1 bundle hmem
  have hactive := (List.mem_insertionSort ..).mp (hown bundle hbundle)
  show (Table.mapVals _ _).lookup _ = _
  rw [Table.lookup_mapVals, Table.lookup_filter.mpr ⟨hprecommit, decide_eq_true hactive⟩, ← howner]
  rfl

theorem validateFormat_of {observation : Json} {snapshot : Snapshot}
    (h : validateSnapshot observation = .ok snapshot) :
    validateFormat observation = .ok snapshot := by
  unfold validateSnapshot at h
  split at h
  · cases h
  · exact h

/-- Whatever its encoding, an observation is validated as a block; a compact one adds the
references it kept, which were checked against its bundles. -/
theorem validateSnapshot_block {observation : Json} {snapshot : Snapshot}
    (h : validateSnapshot observation = .ok snapshot) :
    ∃ view scope block, validateBlock view scope = .ok block ∧ (snapshot = block ∨ ∃ best,
      (∀ bundle ∈ block.bundles, checkReference block.precommits best bundle = .ok ()) ∧
        snapshot = { block with selectionReferences := some best }) := by
  have hformat := validateFormat_of h
  simp only [validateFormat, bind_eq_ok] at hformat
  obtain ⟨-, -, hformat⟩ := hformat
  split at hformat
  · simp only [validateCompact, bind_eq_ok, pure_eq_ok] at hformat
    obtain ⟨-, -, value, -, player, -, activity, -, isActive, -, start, -, response, -, rows, -,
      codes, -, response', -, rows', -, challenges, -, -, -, active, -, -, -, totals, -, view, -,
      block, hblock, references, -, references', -, best, -, _, hchecked, rfl⟩ := hformat
    exact ⟨view, none, block, hblock, .inr ⟨best, forM_eq_ok.mp hchecked, rfl⟩⟩
  · split at hformat
    · simp only [validateScoped, bind_eq_ok] at hformat
      obtain ⟨player, -, scope, -, -, -, count, -, -, -, -, -, -, -, hblock⟩ := hformat
      exact ⟨_, _, snapshot, hblock, .inl rfl⟩
    · exact ⟨_, _, snapshot, hformat, .inl rfl⟩

theorem validateSnapshot_valid {observation : Json} {snapshot : Snapshot}
    (h : validateSnapshot observation = .ok snapshot) (feeds : Table String Json) :
    (snapshot.credited feeds).Valid := by
  obtain ⟨view, scope, block, hblock, rfl | ⟨best, -, rfl⟩⟩ := validateSnapshot_block h
  · exact validateBlock_valid hblock feeds
  · exact validateBlock_valid hblock feeds

end Protocol

/-! ## Order and names -/

namespace EqualBundle

variable {snapshot : BlockSnapshot} {credits credits' : Credits}

/-- The order of bundles does not matter. -/
theorem Divides.perm {bundles : List Bundle} (hperm : bundles.Perm snapshot.bundles)
    (h : Divides { snapshot with bundles } credits) : Divides snapshot credits where
  domain k := (h.domain k).trans (hperm.map key).mem_iff
  shares group := (h.shares group).perm (hperm.filter _)

theorem divisible_perm {bundles : List Bundle} (hperm : bundles.Perm snapshot.bundles)
    (h : snapshot.Divisible) : BlockSnapshot.Divisible { snapshot with bundles } where
  distinct := (hperm.map _).nodup_iff.mpr h.distinct
  enough group := (h.enough group).trans_eq (hperm.countP_eq _).symm

/-- The bundle under another name of its benchmark. -/
def Bundle.rename (f : String → String) (bundle : Bundle) : Bundle :=
  { bundle with benchmarkId := f bundle.benchmarkId }

/-- The block with its benchmarks renamed, as far as the rule looks at it. -/
def renamed (f : String → String) (snapshot : BlockSnapshot) : BlockSnapshot :=
  { snapshot with bundles := snapshot.bundles.map (Bundle.rename f) }

theorem inGroup_renamed (f : String → String) (group : Group) :
    inGroup (renamed f snapshot) group = (inGroup snapshot group).map (Bundle.rename f) := by
  rw [inGroup, renamed, List.filter_map]
  rfl

theorem divisible_renamed {f : String → String}
    (hf : ∀ a ∈ snapshot.bundles, ∀ b ∈ snapshot.bundles,
      f a.benchmarkId = f b.benchmarkId → a.benchmarkId = b.benchmarkId)
    (h : snapshot.Divisible) : (renamed f snapshot).Divisible where
  distinct := by
    have hmap : (renamed f snapshot).bundles.map (fun b => (b.benchmarkId, b.activeIndex))
        = (snapshot.bundles.map fun b => (b.benchmarkId, b.activeIndex)).map
            fun k => (f k.1, k.2) := by
      rw [renamed, List.map_map, List.map_map]
      rfl
    rw [hmap]
    refine h.distinct.map_on fun k hk k' hk' heq => ?_
    obtain ⟨bundle, hbundle, rfl⟩ := List.mem_map.mp hk
    obtain ⟨bundle', hbundle', rfl⟩ := List.mem_map.mp hk'
    obtain ⟨hname, hindex⟩ := Prod.mk.inj heq
    exact Prod.ext (hf bundle hbundle bundle' hbundle' hname) hindex
  enough group := by
    refine (h.enough group).trans_eq ?_
    rw [renamed, List.countP_map]
    rfl

/-- Nor do the names of benchmarks. -/
theorem Divides.creditOf_renamed {f : String → String} (h : Divides snapshot credits)
    (h' : Divides (renamed f snapshot) credits') {bundle : Bundle}
    (hbundle : bundle ∈ snapshot.bundles) :
    creditOf credits' (Bundle.rename f bundle) = creditOf credits bundle := by
  have hshares := h'.shares bundle.group
  rw [inGroup_renamed] at hshares
  have hgroup : bundle ∈ inGroup snapshot bundle.group :=
    List.mem_filter.mpr ⟨hbundle, decide_eq_true rfl⟩
  exact (hshares.of_map.unique (h.shares bundle.group) bundle hgroup)

end EqualBundle

open EqualBundle

/-- Equal bundle credit of a validated observation is never refused, and it is the only
division of the qualifiers of every group among its bundles: fractions of one, equal for
equal quality, no less for higher quality, and nothing behind a bundle that gets less than
one.  It depends neither on the order of the bundles nor on the names of benchmarks. -/
theorem equal_bundle_credit {observation : Json} {snapshot : Protocol.Snapshot}
    (h : Protocol.validateSnapshot observation = .ok snapshot) (feeds : Table String Json) :
    ∃ credits, equalBundleCredit (snapshot.credited feeds) = .ok credits ∧
      Divides (snapshot.credited feeds) credits ∧
      (∀ a ∈ snapshot.bundles, ∀ b ∈ snapshot.bundles, a.group = b.group →
        b.quality ≤ a.quality → creditOf credits b ≤ creditOf credits a) ∧
      (∀ other, Divides (snapshot.credited feeds) other → ∀ k, other.lookup k = credits.lookup k) ∧
      (∀ bundles : List Bundle, bundles.Perm snapshot.bundles → ∃ credits',
        equalBundleCredit { snapshot.credited feeds with bundles } = .ok credits' ∧
          ∀ k, credits'.lookup k = credits.lookup k) ∧
      (∀ f : String → String, (∀ a ∈ snapshot.bundles, ∀ b ∈ snapshot.bundles,
          f a.benchmarkId = f b.benchmarkId → a.benchmarkId = b.benchmarkId) → ∃ credits',
        equalBundleCredit (renamed f (snapshot.credited feeds)) = .ok credits' ∧
          ∀ bundle ∈ snapshot.bundles,
            credits'.lookup (f bundle.benchmarkId, bundle.activeIndex)
              = credits.lookup (bundle.benchmarkId, bundle.activeIndex)) := by
  have hdivisible := (Protocol.validateSnapshot_valid h feeds).divisible
  have hdivides := awards_divides hdivisible
  refine ⟨_, equalBundleCredit_awards hdivisible, hdivides, fun a ha b hb hgroup hab => ?_,
    fun other hother => hdivides.unique hother, fun bundles hperm => ?_, fun f hf => ?_⟩
  · exact (hdivides.shares a.group).mono (List.mem_filter.mpr ⟨ha, decide_eq_true rfl⟩)
      (List.mem_filter.mpr ⟨hb, decide_eq_true hgroup.symm⟩) hab
  · have hdivisible' := @divisible_perm (snapshot.credited feeds) _ hperm hdivisible
    exact ⟨_, equalBundleCredit_awards hdivisible',
      hdivides.unique (Divides.perm hperm (awards_divides hdivisible'))⟩
  · have hdivisible' := @divisible_renamed (snapshot.credited feeds) f hf hdivisible
    have hdivides' := awards_divides hdivisible'
    refine ⟨_, equalBundleCredit_awards hdivisible', fun bundle hbundle => ?_⟩
    have hmem : Bundle.rename f bundle ∈ (renamed f (snapshot.credited feeds)).bundles :=
      List.mem_map_of_mem hbundle
    exact (hdivides'.lookup hmem).trans ((congrArg some
      (hdivides.creditOf_renamed hdivides' hbundle)).trans (hdivides.lookup hbundle).symm)

/-! ### A block with a tie at the cut-off -/

namespace TiedBlock

/-- Three active bundles of one player in two benchmarks; the two of quality 5 compete for
the one place there is. -/
def observation : Json :=
  let state : Json := .obj [("block_confirmed", .int 7)]
  let precommit (id : String) (bundles : ℤ) : Json := .obj [("benchmark_id", .str id),
    ("details", .obj [("block_started", .int 6), ("compute_type", .str "aws_t3"),
      ("fuel_budget", .int 1), ("hyperparameters", .null), ("num_bundles", .int bundles)]),
    ("settings", .obj [("algorithm_id", .str "a"), ("challenge_id", .str "c"),
      ("player_id", .str "pool"), ("track_id", .str "t")]), ("state", state)]
  let benchmark (id : String) (scores : List ℤ) : Json := .obj [("details", .obj
      [("average_quality_by_bundle", .arr (scores.map .int)),
        ("num_active_bundles", .int scores.length), ("stopped", .bool false)]),
    ("id", .str id), ("state", state)]
  let proof (id : String) : Json := .obj [("benchmark_id", .str id),
    ("details", .obj [("block_active", .int 8)]), ("state", state)]
  let details : Json := .obj [("height", .int 9), ("num_active", .obj [("benchmark", .int 2),
      ("challenge", .int 1), ("code", .int 1), ("opow", .int 1)]),
    ("prev_block_id", .str "before"), ("round", .int 1), ("timestamp", .int 100)]
  let data : Json := .obj [("active_ids", .obj [("benchmark", .arr [.str "x", .str "y"]),
    ("challenge", .arr [.str "c"]), ("code", .arr [.str "a"]), ("opow", .arr [.str "pool"])])]
  .obj [
    ("algorithms", .obj [("codes", .arr [.obj [
      ("block_data", .obj [("adoption", .str "10"), ("num_qualifiers_by_track_by_player",
        .obj [("t", .obj [("pool", .int 1)])])]),
      ("details", .obj [("challenge_id", .str "c")]), ("id", .str "a")]])]),
    ("challenges", .obj [("challenges", .arr [.obj [
      ("block_data", .obj [("num_qualifiers_by_track", .obj [("t", .int 1)])]),
      ("config", .obj [("active_tracks", .obj [("t", .obj [])])]), ("id", .str "c")]])]),
    ("end", .obj [("block",
      .obj [("config", .obj []), ("details", details), ("id", .str "block")])]),
    ("opow", .obj [("opow", .arr [.obj [
      ("block_data", .obj [("num_qualifiers_by_challenge_by_track",
        .obj [("c", .obj [("t", .int 1)])])]), ("player_id", .str "pool")]])]),
    ("players", .obj [("pool", .obj [
      ("benchmarks", .arr [benchmark "x" [5, 3], benchmark "y" [5]]), ("frauds", .arr []),
      ("precommits", .arr [precommit "x" 2, precommit "y" 1]),
      ("proofs", .arr [proof "x", proof "y"])])]),
    ("start", .obj [("block", .obj [("config", .obj []), ("data", data), ("details", details),
      ("id", .str "block")])])]

def bundle (id : String) (index : ℕ) (quality : ℤ) : Bundle :=
  ⟨id, index, "pool", "c", "a", "t", quality⟩

theorem validates : (Protocol.validateSnapshot observation).toOption.map (·.bundles)
    = some [bundle "x" 0 5, bundle "x" 1 3, bundle "y" 0 5] := by
  decide +kernel

theorem equal_bundle_credit_tied : ∃ snapshot credits,
    Protocol.validateSnapshot observation = .ok snapshot ∧
      equalBundleCredit (snapshot.credited ∅) = .ok credits ∧
      Divides (snapshot.credited ∅) credits := by
  have hvalidates := validates
  cases h : Protocol.validateSnapshot observation with
  | error e =>
      rw [h] at hvalidates
      cases hvalidates
  | ok snapshot =>
      obtain ⟨credits, hcredits, hdivides, -⟩ := equal_bundle_credit h ∅
      exact ⟨snapshot, credits, rfl, hcredits, hdivides⟩

end TiedBlock

end TigPool
