/-
# `TigPool.CreditLedger` — recorded credit is exact, and stays

A block is credited from a replay of what was saved for it, raw or compact; for the
pool's own player the two say the same.  The credits of a block are those of the pool's
benchmarks in it, go to the members whose work they are, and add up to the number of
the pool's bundles that qualify.  What is true when a block is credited stays true:
neither the credit nor the owner of a benchmark ever changes.
-/
import Mathlib.Algebra.BigOperators.Group.Finset.Piecewise
import TigPool.Cursor
import TigPool.Refinement.Archive
import TigPool.Responses

namespace TigPool

open Basis

/-! ## What a replay says -/

namespace BlockSnapshot

variable {snapshot : BlockSnapshot} {playerId benchmarkId : String}

theorem mem_ownedBy :
    benchmarkId ∈ snapshot.ownedBy playerId ↔ snapshot.precommits.lookup benchmarkId = some playerId := by
  rw [ownedBy, ← AList.mem_keys, ← AList.lookup_isSome, Option.isSome_iff_exists]
  constructor
  · rintro ⟨player, h⟩
    obtain ⟨hlookup, hplayer⟩ := Table.lookup_filter.mp h
    rwa [decide_eq_true_eq.mp hplayer] at hlookup
  · intro h
    exact ⟨playerId, Table.lookup_filter.mpr ⟨h, by simp⟩⟩

/-- What is kept of the pool's player is kept whole. -/
theorem compact_qualifiersOf :
    (snapshot.compact playerId).qualifiersOf playerId = snapshot.qualifiersOf playerId := by
  rw [qualifiersOf, compact, Table.total_filter, qualifiersOf]
  refine Table.total_congr fun group count _ => ?_
  by_cases h : group.1 = playerId <;> simp [h]

theorem mem_compact_ownedBy : benchmarkId ∈ (snapshot.compact playerId).ownedBy playerId ↔
    benchmarkId ∈ snapshot.ownedBy playerId := by
  rw [mem_ownedBy, mem_ownedBy, compact, Table.lookup_filter]
  simp

/-- A raw replay of a snapshot, or one of its compact copy for the player. -/
def Replays (snapshot replay : BlockSnapshot) (playerId : String) : Prop :=
  replay = snapshot ∨ replay = snapshot.compact playerId

theorem Replays.qualifiersOf {replay : BlockSnapshot} (h : snapshot.Replays replay playerId) :
    replay.qualifiersOf playerId = snapshot.qualifiersOf playerId := by
  rcases h with rfl | rfl
  · rfl
  · exact compact_qualifiersOf

theorem Replays.mem_ownedBy {replay : BlockSnapshot} (h : snapshot.Replays replay playerId) :
    benchmarkId ∈ replay.ownedBy playerId ↔ benchmarkId ∈ snapshot.ownedBy playerId := by
  rcases h with rfl | rfl
  · rfl
  · exact mem_compact_ownedBy

end BlockSnapshot

/-! ## The credit row of a block -/

/-- What a credit row says is so: of the block, and of the reservations. -/
structure CreditedBlock.Fits (row : CreditedBlock) (f : Funds) (b : ObservedBlock) : Prop where
  total : row.total = b.snapshot.qualifiersOf row.playerId
  sum : (row.credits.map (·.credit)).sum = row.total
  nonneg : ∀ c ∈ row.credits, 0 ≤ c.credit
  pool : ∀ c ∈ row.credits, b.snapshot.precommits.lookup c.benchmarkId = some row.playerId
  owner : ∀ c ∈ row.credits, ∃ id r, f.reservations.lookup id = some r ∧
    r.benchmarkId = some c.benchmarkId ∧ r.memberId = c.memberId

theorem CreditedBlock.Fits.mono {row : CreditedBlock} {f f' : Funds} {b b' : ObservedBlock}
    (h : row.Fits f b) (hf : f.Extends f') (hb : b'.snapshot = b.snapshot) : row.Fits f' b' where
  total := hb ▸ h.total
  sum := h.sum
  nonneg := h.nonneg
  pool := hb ▸ h.pool
  owner c hc := by
    obtain ⟨id, r, hr, hbenchmark, hmember⟩ := h.owner c hc
    obtain ⟨r', hr', hx⟩ := hf.reservation hr
    exact ⟨id, r', hr', hx.benchmarkId _ hbenchmark, hx.memberId.trans hmember⟩

namespace Qualifiers

variable {db : Db} {saved : PoolCredit}

theorem poolCredit_spec {snapshot : BlockSnapshot} {playerId : String}
    (h : poolCredit snapshot playerId = .ok saved) :
    saved.owned = snapshot.ownedBy playerId ∧ saved.expected = snapshot.qualifiersOf playerId := by
  simp only [poolCredit, bind_eq_ok, pure_eq_ok] at h
  obtain ⟨_, -, rfl⟩ := h
  exact ⟨rfl, rfl⟩

/-- If as many owners are found as there are benchmarks, each benchmark has one. -/
theorem ownersOf_fst (h : (ownersOf db saved).length = saved.owned.length) :
    (ownersOf db saved).map (·.1) = saved.owned := by
  have hsub : ∀ xs : List String, ((xs.filterMap fun b => (owner db b).map fun r =>
      (b, r)).map (·.1)).Sublist xs := by
    intro xs
    induction xs with
    | nil => exact .slnil
    | cons b rest ih =>
        rw [List.filterMap_cons]
        cases owner db b with
        | none => exact ih.cons b
        | some r => exact ih.cons_cons b
  exact (hsub saved.owned).eq_of_length (by rw [List.length_map]; exact h)

theorem mem_ownersOf {o : String × Reservation} (h : o ∈ ownersOf db saved) :
    o.1 ∈ saved.owned ∧
      ∃ id, db.funds.reservations.lookup id = some o.2 ∧ o.2.benchmarkId = some o.1 := by
  obtain ⟨b, hb, ho⟩ := List.mem_filterMap.mp h
  obtain ⟨r, hr, rfl⟩ := Option.map_eq_some_iff.mp ho
  obtain ⟨⟨id, r'⟩, hfind, rfl⟩ := Option.map_eq_some_iff.mp hr
  obtain ⟨hlookup, hbenchmark⟩ := Table.find_eq_some hfind
  exact ⟨hb, id, hlookup, by simpa using hbenchmark⟩

/-- Summing over a list that covers the keys is summing over the table. -/
theorem sum_lookup_eq_total {t : Table String ℚ} {names : List String} (hnodup : names.Nodup)
    (hkeys : ∀ b ∈ t.keys, b ∈ names) :
    (names.map fun b => (t.lookup b).getD 0).sum = t.total fun _ credit => credit := by
  have hsum : (t.keys.map fun b => (t.lookup b).getD 0).sum = t.total fun _ credit => credit :=
    Table.sum_keys_eq_total fun b credit hb => by rw [hb]; rfl
  rw [← hsum, ← List.sum_toFinset _ hnodup, ← List.sum_toFinset _ t.keys_nodup]
  refine (Finset.sum_subset (fun b hb => ?_) fun b _ hb => ?_).symm
  · exact List.mem_toFinset.mpr (hkeys b (List.mem_toFinset.mp hb))
  · rw [List.mem_toFinset, ← AList.mem_keys, ← AList.lookup_eq_none] at hb
    rw [hb]
    rfl

theorem creditRow_sum {playerId : String} (hnodup : saved.owned.Nodup)
    (howners : (ownersOf db saved).length = saved.owned.length)
    (hkeys : ∀ b ∈ saved.byBenchmark.keys, b ∈ saved.owned) :
    ((creditRow db playerId saved).credits.map (·.credit)).sum
      = (creditRow db playerId saved).total := by
  have hlist : ∀ os : List (String × Reservation),
      ((os.filterMap fun o => (saved.byBenchmark.lookup o.1).map fun credit =>
        BenchmarkCredit.mk o.1 o.2.memberId credit).map (·.credit)).sum
        = ((os.map (·.1)).map fun b => (saved.byBenchmark.lookup b).getD 0).sum := by
    intro os
    induction os with
    | nil => rfl
    | cons o rest ih =>
        rw [List.filterMap_cons, List.map_cons, List.map_cons, List.sum_cons, ← ih]
        cases saved.byBenchmark.lookup o.1 with
        | none => simp
        | some credit => simp
  rw [creditRow, hlist, ownersOf_fst howners]
  exact sum_lookup_eq_total hnodup hkeys

/-- A block is credited as it should be. -/
theorem creditRow_fits {block : ObservedBlock} {snapshot : BlockSnapshot} {playerId : String}
    (hreplay : block.snapshot.Replays snapshot playerId)
    (hsaved : poolCredit snapshot playerId = .ok saved)
    (howners : (ownersOf db saved).length = saved.owned.length)
    (hkeys : ∀ b ∈ saved.byBenchmark.keys, b ∈ saved.owned)
    (htotal : (saved.byBenchmark.total fun _ credit => credit) = saved.expected)
    (hnonneg : saved.byBenchmark.any (fun _ credit => credit < 0) = false)
    (row : Option CreditedBlock) :
    (creditRow db playerId saved).Fits db.funds { block with credited := row } := by
  obtain ⟨howned, hexpected⟩ := poolCredit_spec hsaved
  have hnodup : saved.owned.Nodup := howned ▸ AList.keys_nodup _
  have hcredit : ∀ c ∈ (creditRow db playerId saved).credits, ∃ o ∈ ownersOf db saved,
      c.benchmarkId = o.1 ∧ c.memberId = o.2.memberId ∧
        saved.byBenchmark.lookup o.1 = some c.credit := by
    intro c hc
    obtain ⟨o, ho, hmap⟩ := List.mem_filterMap.mp hc
    obtain ⟨credit, hlookup, rfl⟩ := Option.map_eq_some_iff.mp hmap
    exact ⟨o, ho, rfl, rfl, hlookup⟩
  refine ⟨?_, creditRow_sum hnodup howners hkeys, fun c hc => ?_, fun c hc => ?_, fun c hc => ?_⟩
  · show (saved.byBenchmark.total fun _ credit => credit) = _
    rw [htotal, hexpected, hreplay.qualifiersOf]
    rfl
  · obtain ⟨o, -, -, -, hlookup⟩ := hcredit c hc
    simpa using Table.any_eq_false.mp hnonneg _ _ hlookup
  · obtain ⟨o, ho, hb, -, -⟩ := hcredit c hc
    have hmem := (mem_ownersOf ho).1
    rw [howned, hreplay.mem_ownedBy, BlockSnapshot.mem_ownedBy] at hmem
    rw [hb]
    exact hmem
  · obtain ⟨o, ho, hb, hm, -⟩ := hcredit c hc
    obtain ⟨-, id, hr, hbenchmark⟩ := mem_ownersOf ho
    exact ⟨id, o.2, hr, by rw [hb]; exact hbenchmark, hm.symm⟩

end Qualifiers

/-! ## Every run -/

/-- What holds of credits, copies and replays when one player is the pool's. -/
structure CreditInvariant (s : Sys) (playerId : String) : Prop where
  rows : ∀ {id b row}, s.db.observation.blocks.lookup id = some b → b.credited = some row →
    row.playerId = playerId ∧ row.Fits s.db.funds b
  copies : ∀ {id copy}, s.db.observation.archive.compactBlockCopies.lookup id = some copy →
    copy.playerId = playerId
  replays : ∀ {id snapshot}, (id, snapshot) ∈ s.held.snapshots →
    ∃ b, s.db.observation.blocks.lookup id = some b ∧ b.snapshot.Replays snapshot playerId

theorem ObservedBlock.Extends.snapshot {b b' : ObservedBlock} (h : b.Extends b') :
    b'.snapshot = b.snapshot := by
  have hfacts := congrArg ObservedBlock.snapshot h.facts
  exact hfacts

theorem BlockStore.read_replays {db : Db} {blockId : String} {snapshot : BlockSnapshot}
    {playerId : String} (h : read db blockId = .ok snapshot)
    (hcopies : ∀ {id copy}, db.observation.archive.compactBlockCopies.lookup id = some copy →
      copy.playerId = playerId) :
    ∃ b, db.observation.blocks.lookup blockId = some b ∧ b.snapshot.Replays snapshot playerId := by
  simp only [read, bind_eq_ok, require_eq_ok, exists_const, fetch_eq_ok] at h
  obtain ⟨b, hb, -, h⟩ := h
  refine ⟨b, hb, ?_⟩
  split at h
  next copy hcopy =>
    simp only [bind_eq_ok, require_eq_ok, exists_const, pure_eq_ok] at h
    obtain ⟨-, rfl⟩ := h
    rw [hcopies hcopy]
    exact Or.inr rfl
  next =>
    simp only [bind_eq_ok, require_eq_ok, exists_const, pure_eq_ok, fetch_eq_ok] at h
    obtain ⟨_, -, -, -, rfl⟩ := h
    exact Or.inl rfl

namespace Sys

/-- All transactions; blocks are credited and copied for one player. -/
def Pool (playerId : String) (_ : Sys) (a : Action) : Prop :=
  ∀ b p, a = .observe (.creditBlock b p) ∨ a = .observe (.backfill b p) → p = playerId

variable {s s' : Sys} {a : Action} {playerId : String}

/-- A step credits a block for the pool's player from what was saved, or not at all. -/
theorem Step.credited (hs : s.Lawful) (hi : CreditInvariant s playerId)
    (hp : Pool playerId s a) (h : Step s a s') {id : String} {b : ObservedBlock}
    {row : CreditedBlock} (hb : s'.db.observation.blocks.lookup id = some b)
    (hrow : b.credited = some row) : row.playerId = playerId ∧ row.Fits s'.db.funds b := by
  have hf := h.extends hs
  have hold : ∀ {b₀}, s.db.observation.blocks.lookup id = some b₀ → b₀.credited = some row →
      b.snapshot = b₀.snapshot → row.playerId = playerId ∧ row.Fits s'.db.funds b := by
    intro b₀ hb₀ hrow₀ hsame
    obtain ⟨hplayer, hfits⟩ := hi.rows hb₀ hrow₀
    exact ⟨hplayer, hfits.mono hf hsame⟩
  by_cases hcredit : ∃ blockId p, a = .observe (.creditBlock blockId p)
  · obtain ⟨blockId, p, rfl⟩ := hcredit
    obtain rfl := hp blockId p (Or.inl rfl)
    cases h with
    | observe h =>
        cases h with
        | creditBlock hread hsaved h =>
            rcases Qualifiers.creditBlock_cases h with
              rfl | ⟨block, hblock, hnone, howners, hkeys, htotal, hnonneg, rfl⟩
            · exact hold hb hrow rfl
            · rcases Table.lookup_insert_cases hb with ⟨rfl, rfl⟩ | ⟨-, hb⟩
              · obtain rfl := Option.some.inj hrow
                obtain ⟨b₀, hb₀, hreplay⟩ := hi.replays hread
                obtain rfl := Option.some.inj (hblock.symm.trans hb₀)
                exact ⟨rfl, Qualifiers.creditRow_fits hreplay hsaved howners hkeys htotal hnonneg _⟩
              · exact hold hb hrow rfl
  · have hkept : Evolves ObservedBlock.Saved (fun _ _ => False)
        (s.db.observation.blocks.lookup id) (s'.db.observation.blocks.lookup id) := by
      by_cases ho : ∃ o, a = .observe o
      · obtain ⟨o, rfl⟩ := ho
        cases h with
        | observe h => exact h.saves (fun b p ha => hcredit ⟨b, p, by rw [ha]⟩) id
      · rw [h.observation hs fun o ha => ho ⟨o, ha⟩]
        exact .same
    refine hkept.keeps (P := fun b' => b'.credited = some row → b'.snapshot = b.snapshot →
      row.playerId = playerId ∧ row.Fits s'.db.funds b) ?_ ?_ ?_ b hb hrow rfl
    · intro b₀ hb₀ hrow₀ hsame
      exact hold hb₀ hrow₀ hsame.symm
    · intro b₀ hsaved hrow₀
      rw [hsaved.credited] at hrow₀
      cases hrow₀
    · exact fun _ _ _ hfalse => hfalse.elim

/-- A copy is made for the pool's player, or was there. -/
theorem Step.copies (hs : s.Lawful) (hi : CreditInvariant s playerId) (hp : Pool playerId s a)
    (h : Step s a s') {id : String} {copy : CompactCopy}
    (hcopy : s'.db.observation.archive.compactBlockCopies.lookup id = some copy) :
    copy.playerId = playerId := by
  by_cases ho : ∃ o, a = .observe o
  · obtain ⟨o, rfl⟩ := ho
    cases h with
    | observe h =>
        refine (h.changes.copies id).keeps (fun _ => hi.copies) ?_ ?_ copy hcopy
        · rintro c ⟨block, rfl, -⟩
          exact hp block c.playerId (Or.inr rfl)
        · rintro c _ hc ⟨rfl, -⟩
          exact hc
  · rw [h.observation hs fun o ha => ho ⟨o, ha⟩] at hcopy
    exact hi.copies hcopy

theorem Step.replays (hs : s.Lawful) (hi : CreditInvariant s playerId) (h : Step s a s')
    {id : String} {snapshot : BlockSnapshot} (hmem : (id, snapshot) ∈ s'.held.snapshots) :
    ∃ b, s'.db.observation.blocks.lookup id = some b ∧ b.snapshot.Replays snapshot playerId := by
  have hold : (id, snapshot) ∈ s.held.snapshots → ∃ b,
      s'.db.observation.blocks.lookup id = some b ∧ b.snapshot.Replays snapshot playerId := by
    intro hmem
    obtain ⟨b, hb, hreplay⟩ := hi.replays hmem
    obtain ⟨b', hb', hx⟩ := h.blocks_extend hs hb
    exact ⟨b', hb', by rw [hx.snapshot]; exact hreplay⟩
  cases h with
  | hold h =>
      cases h with
      | read hread =>
          rcases List.mem_cons.mp hmem with heq | hmem
          · obtain ⟨rfl, rfl⟩ := Prod.mk.inj heq
            exact BlockStore.read_replays hread hi.copies
          · exact hold hmem
      | _ => exact hold hmem
  | _ => exact hold hmem

theorem Reachable.credits (h : Reachable (Pool playerId) s) : CreditInvariant s playerId := by
  refine Reachable.invariant (I := fun s => CreditInvariant s playerId) h ?_ ?_
  · intro s hs
    refine ⟨fun {id b row} hb _ => ?_, fun {id copy} hcopy => ?_, fun {id snapshot} hmem => ?_⟩
    · rw [hs.blocks] at hb
      cases hb
    · rw [hs.archive] at hcopy
      cases hcopy
    · rw [hs.held] at hmem
      cases hmem
  · intro s a s' hp hs hi hstep
    exact ⟨hstep.credited hs.lawful hi hp, hstep.copies hs.lawful hi hp,
      hstep.replays hs.lawful hi⟩

end Sys

/-! ## The credits of a round -/

namespace Qualifiers

variable {db : Db} {X : ℕ}

/-- All credit of a block. -/
def creditIn (b : ObservedBlock) : ℚ :=
  ((b.credited.elim [] (·.credits)).map (·.credit)).sum

theorem mem_creditedMembers {id : String} {b : ObservedBlock} {c : BenchmarkCredit}
    (hb : db.observation.blocks.lookup id = some b) (hround : b.round = X)
    (hc : c ∈ b.credited.elim [] (·.credits)) : c.memberId ∈ creditedMembers db X := by
  rw [creditedMembers, List.mem_dedup, List.mem_flatMap]
  refine ⟨⟨id, b⟩, List.mem_filter.mpr ⟨Table.mem_entries_iff.mpr hb, by simpa using hround⟩, ?_⟩
  exact List.mem_map.mpr ⟨c, hc, rfl⟩

/-- Credits added up by member are credits added up. -/
theorem sum_by_member {members : List Uuid} (hnodup : members.Nodup)
    {credits : List BenchmarkCredit} (hall : ∀ c ∈ credits, c.memberId ∈ members) :
    (members.map fun m => ((credits.filter fun c => c.memberId = m).map (·.credit)).sum).sum
      = (credits.map (·.credit)).sum := by
  induction credits with
  | nil => simp
  | cons c rest ih =>
      have hrest := ih fun c hc => hall c (List.mem_cons_of_mem _ hc)
      rw [List.map_cons, List.sum_cons, ← hrest]
      have hone : (members.map fun m => if c.memberId = m then c.credit else 0).sum = c.credit := by
        rw [← List.sum_toFinset _ hnodup, Finset.sum_ite_eq,
          if_pos (List.mem_toFinset.mpr (hall c (List.mem_cons_self ..)))]
      rw [← hone, ← List.sum_map_add]
      congr 1
      refine List.map_congr_left fun m _ => ?_
      by_cases hm : c.memberId = m <;> simp [hm]

/-- The credits of all members add up to the credit of all blocks of the round. -/
theorem roundCredits_total : ((roundCredits db X).total fun _ credit => credit)
    = db.observation.blocks.total fun _ b => if b.round = X then creditIn b else 0 := by
  have hnodup : (creditedMembers db X).Nodup := List.nodup_dedup _
  rw [roundCredits, Table.total_foldr_insert hnodup]
  refine Table.sum_map_total.trans ?_
  refine Table.total_congr fun id b hb => ?_
  by_cases hround : b.round = X
  · simp only [hround, if_true]
    exact sum_by_member hnodup fun c hc => mem_creditedMembers hb hround hc
  · simp [hround]

theorem roundCredits_getD (memberId : Uuid) :
    ((roundCredits db X).lookup memberId).getD 0 = creditOf db X memberId := by
  rw [roundCredits, Table.lookup_foldr_insert]
  split
  next => rfl
  next hnot =>
    refine (Table.total_eq_zero fun id b hb => ?_).symm
    by_cases hround : b.round = X
    · rw [if_pos hround]
      have hnone : ((b.credited.elim [] (·.credits)).filter fun c => c.memberId = memberId) = [] := by
        rw [List.filter_eq_nil_iff]
        intro c hc heq
        exact hnot (of_decide_eq_true heq ▸ mem_creditedMembers hb hround hc)
      rw [hnone]
      rfl
    · rw [if_neg hround]

end Qualifiers

/-- In a round whose coverage is complete with credit, every saved block is credited. -/
theorem BlockStore.covered_credited {db : Db} {X : ℕ} {gaps : RoundGaps}
    (hl : db.observation.Linked)
    (hlawful : ∀ {id b}, db.observation.blocks.lookup id = some b → b.Lawful)
    (h : roundGaps db X = .ok gaps) (hcomplete : gaps.creditedComplete = true) {id : String}
    {b : ObservedBlock} (hb : db.observation.blocks.lookup id = some b) (hround : b.round = X) :
    b.credited.isSome = true := by
  simp only [roundGaps, bind_eq_ok] at h
  obtain ⟨policy, -, h⟩ := h
  split at h
  next length hlengths =>
    obtain rfl := Except.ok.inj h
    have hlength : b.blocksPerRound = length := by
      have hmem : b.blocksPerRound ∈ roundLengths db X :=
        List.mem_dedup.mpr (List.mem_map.mpr ⟨⟨id, b⟩,
          List.mem_filter.mpr ⟨Table.mem_entries_iff.mpr hb, by simpa using hround⟩, rfl⟩)
      rw [hlengths] at hmem
      exact List.mem_singleton.mp hmem
    have hheight : b.height ∈ roundHeights X length := by
      have hpos := (hlawful hb).length
      have hdiv := (hlawful hb).round
      rw [hlength] at hpos hdiv
      rw [roundHeights, List.mem_range'_1]
      have hx : X - 1 = b.height / length := by
        rw [← hround, ← hdiv, Nat.add_sub_cancel]
      have hmod := Nat.div_add_mod b.height length
      have hlt := Nat.mod_lt b.height hpos
      rw [hx, Nat.mul_comm]
      exact ⟨by omega, by omega⟩
    have hnone : ∀ h ∈ roundHeights X length,
        ¬ (blockOfRound db X h).any (·.credited.isNone) = true := by
      have hzero := (decide_eq_true_eq.mp hcomplete).2
      exact List.countP_eq_zero.mp hzero
    have hfind : blockOfRound db X b.height = some b := by
      rw [blockOfRound]
      cases hf : db.observation.blocks.find fun _ b' => b'.height = b.height ∧ b'.round = X with
      | none =>
          have hnot := Table.find_eq_none.mp hf id b hb
          simp [hround] at hnot
      | some e =>
          obtain ⟨id', b'⟩ := e
          obtain ⟨hb', hsame⟩ := Table.find_eq_some hf
          have heq : b'.height = b.height := (decide_eq_true_eq.mp hsame).1
          have hid : id' = id := @hl.unique b.height _ _ _ _ ⟨hb', by exact_mod_cast heq⟩ ⟨hb, rfl⟩
          rw [hid] at hb'
          rw [Option.map_some, Option.some.inj (hb'.symm.trans hb)]
    have hcredited := hnone _ hheight
    rw [hfind] at hcredited
    simpa [Option.isSome_iff_ne_none] using hcredited
  next =>
    obtain rfl := Except.ok.inj h
    cases hcomplete

/-- Credit on record stays on record. -/
theorem Sys.run_credited {I : Sys → Action → Prop} {s s' : Sys} (hs : s.Lawful)
    (hrun : Leads Sys.Step I s s') :
    Basis.Extends ObservedBlock.Extends s.db.observation.blocks s'.db.observation.blocks :=
  Leads.relates
    (R := fun s t : Sys => Basis.Extends ObservedBlock.Extends s.db.observation.blocks
      t.db.observation.blocks) hrun hs (fun _ => .refl .refl)
    (fun h h' => Basis.Extends.trans h h' fun _ _ _ => ObservedBlock.Extends.trans)
    (fun _ _ _ _ ht => ht.step) fun _ _ _ _ ht h => h.blocks_extend ht

/-- The credits of a round add up to the pool's qualifiers in the credited blocks of the
round. -/
theorem Sys.Reachable.round_total {playerId : String} {s : Sys}
    (h : Sys.Reachable (Sys.Pool playerId) s) (X : ℕ) :
    ((Qualifiers.roundCredits s.db X).total fun _ credit => credit)
      = s.db.observation.blocks.total fun _ b =>
        if b.round = X ∧ b.credited.isSome then (b.snapshot.qualifiersOf playerId : ℚ) else 0 := by
  rw [Qualifiers.roundCredits_total]
  refine Table.total_congr fun id b hb => ?_
  by_cases hround : b.round = X
  · rw [if_pos hround]
    rcases hrow : b.credited with _ | row
    · simp [Qualifiers.creditIn, hrow]
    · obtain ⟨hplayer, hfits⟩ := h.credits.rows hb hrow
      rw [if_pos ⟨hround, rfl⟩, Qualifiers.creditIn, hrow, Option.elim, hfits.sum, hfits.total,
        hplayer]
  · rw [if_neg hround, if_neg fun hboth => hround hboth.1]

/-- What `round_credits` found covered stays credited. -/
theorem Sys.Reachable.covered {playerId : String} {s s' : Sys}
    (h : Sys.Reachable (Sys.Pool playerId) s) (hrun : Leads Sys.Step (Sys.Pool playerId) s s')
    {X : ℕ} (hcover : Qualifiers.requireCoverage s.db X = .ok ()) {id : String} {b' : ObservedBlock}
    (hb' : s'.db.observation.blocks.lookup id = some b') (hround : b'.round = X)
    (hseen : id ∈ s.db.observation.blocks) : b'.credited.isSome = true := by
  simp only [Qualifiers.requireCoverage, bind_eq_ok, require_eq_ok] at hcover
  obtain ⟨gaps, hgaps, hcomplete⟩ := hcover
  obtain ⟨b, hb⟩ := Option.isSome_iff_exists.mp (AList.lookup_isSome.mpr hseen)
  obtain ⟨b'', hb'', hx⟩ := Sys.run_credited h.lawful hrun hb
  obtain rfl := Option.some.inj (hb'.symm.trans hb'')
  have hcredited := BlockStore.covered_credited h.exact.linked h.block_lawful hgaps hcomplete
    hb (hx.round.symm.trans hround)
  obtain ⟨row, hrow⟩ := Option.isSome_iff_exists.mp hcredited
  rw [hx.credited row hrow]
  rfl

/-- In every reachable state with one pool player: what each credit row says is so, and no
credit row ever changes. `round_credits`, which finds the round covered first and reads
later, returns the exact sum for each member; they add up to the pool's qualifiers in the
credited blocks of the round, among them all blocks it found, and so in all blocks of the
round if no other was saved in between. -/
theorem credit_ledger {playerId : String} {s : Sys} (h : Sys.Reachable (Sys.Pool playerId) s) :
    (∀ id b row, s.db.observation.blocks.lookup id = some b → b.credited = some row →
      row.playerId = playerId ∧ row.Fits s.db.funds b) ∧
    ∀ s', Leads Sys.Step (Sys.Pool playerId) s s' →
      (∀ id b row, s.db.observation.blocks.lookup id = some b → b.credited = some row →
        ∃ b', s'.db.observation.blocks.lookup id = some b' ∧ b'.credited = some row) ∧
      ∀ X, Qualifiers.requireCoverage s.db X = .ok () →
        (∀ m, ((Qualifiers.roundCredits s'.db X).lookup m).getD 0 = Qualifiers.creditOf s'.db X m) ∧
        ((Qualifiers.roundCredits s'.db X).total fun _ credit => credit)
          = (s'.db.observation.blocks.total fun _ b =>
            if b.round = X ∧ b.credited.isSome then (b.snapshot.qualifiersOf playerId : ℚ) else 0) ∧
        (∀ id b, s'.db.observation.blocks.lookup id = some b → b.round = X →
          id ∈ s.db.observation.blocks → b.credited.isSome) ∧
        ((∀ id b, s'.db.observation.blocks.lookup id = some b → b.round = X →
            id ∈ s.db.observation.blocks) →
          ((Qualifiers.roundCredits s'.db X).total fun _ credit => credit)
            = s'.db.observation.blocks.total fun _ b =>
              if b.round = X then (b.snapshot.qualifiersOf playerId : ℚ) else 0) := by
  refine ⟨fun id b row hb hrow => h.credits.rows hb hrow, fun s' hrun => ⟨?_, fun X hcover => ?_⟩⟩
  · intro id b row hb hrow
    obtain ⟨b', hb', hx⟩ := Sys.run_credited h.lawful hrun hb
    exact ⟨b', hb', hx.credited row hrow⟩
  · have hreach : Sys.Reachable (Sys.Pool playerId) s' := by
      obtain ⟨s₀, hi, hrun₀⟩ := h
      exact ⟨s₀, hi, hrun₀.trans hrun⟩
    have htotal := hreach.round_total X
    refine ⟨Qualifiers.roundCredits_getD, htotal, ?_, fun hsame => htotal.trans ?_⟩
    · exact fun id b hb hround hseen => h.covered hrun hcover hb hround hseen
    · refine Table.total_congr fun id b hb => ?_
      by_cases hround : b.round = X
      · rw [if_pos hround, if_pos ⟨hround, h.covered hrun hcover hb hround (hsame id b hb hround)⟩]
      · rw [if_neg hround, if_neg fun hboth => hround hboth.1]

/-! ## A credited day -/

namespace CreditedDay

def tracks : Json :=
  .obj [("track", .obj [("fuel_budget", .int 1), ("hyperparameters", .null),
    ("num_bundles", .int 1)])]

def payload : Json :=
  WorkRequests.proposal "pool" "block-0" "challenge" "algorithm" "aws_t3" tracks

def selection : WorkRequests.Selection :=
  { ResponseDay.selection with payload }

def benchmarkId : String := "aaaaaaaaaaaaaaaaaaaaaaaaaaaaaaaa"
def secondId : String := "bbbbbbbbbbbbbbbbbbbbbbbbbbbbbbbb"

/-- A benchmark as TIG confirms it. -/
def confirmed (benchmarkId algorithmId fee : String) (bundles : Json) : Json :=
  .obj [("benchmark_id", .str benchmarkId),
    ("details", .obj [("block_started", .int 0), ("compute_type", .str "aws_t3"),
      ("fee_paid", .str fee), ("fuel_budget", .int 1), ("hyperparameters", .null),
      ("num_bundles", bundles), ("num_nonces", .int 2), ("rand_hash", .str benchmarkId)]),
    ("settings", .obj [("algorithm_id", .str algorithmId), ("block_id", .str "block-0"),
      ("challenge_id", .str "challenge"), ("player_id", .str "pool"), ("track_id", .str "track")]),
    ("state", .obj [("block_confirmed", .int 1)])]

def precommit : Json := confirmed benchmarkId "algorithm" "0" (.int 1)

/-- What the protocol charges for a benchmark. -/
def charges (fee : String) : Submissions.Snapshot where
  height := 0
  challenges := .obj [("challenge", .obj [("config", .obj [
    ("active_tracks", .obj [("track", .obj [("num_nonces_per_bundle", .int 2)])]),
    ("base_fee", .str fee), ("per_nonce_fee", .str "0")])])]
  algorithms := .obj []

def published : Submissions.Snapshot := charges "0"

def evidence : Json := .obj [("k", .int 1)]

/-- The first of the two blocks of its round. -/
def block : BlockStore.BlockCapture :=
  { FirstDay.block with blocksPerRound := 2 }

def bundle (benchmarkId : String) : Bundle :=
  ⟨benchmarkId, 0, "pool", "challenge", "algorithm", "track", 5⟩

/-- Two bundles of equal quality compete for the one place there is. -/
def tied : BlockStore.BlockCapture :=
  { block with
    blockId := "block-1", height := 1, previousId := "block-0"
    semanticDigest := "digest of block-1", accepted := ["digest of block-1"]
    snapshot := ⟨[bundle benchmarkId, bundle secondId],
      AList.insert (bundle benchmarkId).group 1 ∅,
      AList.insert benchmarkId "pool" (AList.insert secondId "pool" ∅), ∅⟩
    valid := ⟨by decide, by decide, fun group => by
      rw [Table.lookup_insert_eq]
      split
      next heq => rw [heq]; decide
      next => exact Nat.zero_le _⟩ }

def source : BlockStore.Source where
  attemptId := "second attempt"
  blockId := some "block-1"
  chunks := ["second chunk"]

def wallet : Address := "0x00000000000000000000000000000000000000cc"

def deposit : ConfirmedTransfer :=
  { FirstDay.deposit with txHash := "0x02", sender := wallet }

/-- Two members wait for work. -/
def asked : Result Db := do
  let db ← initializeAccounts migrated
  let (db, _) ← registerVerified db FirstDay.wallet "member"
  let (db, _) ← registerVerified db wallet "second"
  let db ← setCap db 3600 FirstDay.limits "operator" "start" "cap" "cap"
  let (db, _) ← Deposits.receive db FirstDay.deposit
  let (db, _) ← Deposits.receive db deposit
  let db ← BlockStore.initializeStore db 0
  let db ← BlockStore.record db FirstDay.source (some block) none
  let (db, _) ← WorkRequests.create db "member" "work" "CPU" "aws_t3" FirstDay.capacity 60
    "member's request"
  let (db, _) ← WorkRequests.create db "second" "work" "CPU" "aws_t3" FirstDay.capacity 60
    "second's request"
  return db

/-- A member's request becomes a benchmark, which is handed over. -/
def benchmarked (db : Db) (member benchmarkId : String) : Result Db := do
  let (db, _) ← WorkRequests.reserveNext db "block-0" (fun _ => .ok (some selection))
    [member ++ "'s request"] FirstDay.around (fun _ => .ok ())
    ⟨member ++ "'s benchmark", member ++ "'s intent"⟩
  let db ← Submissions.recordBinary db (member ++ "'s benchmark") ResponseDay.url "digest"
  let (db, _) ← Submissions.begin db (member ++ "'s intent") (some ResponseDay.preflight)
    FirstDay.around
  let (db, _) ← Submissions.recordResponse db (member ++ "'s intent")
    (ResponseDay.answer benchmarkId) (member ++ "'s response") ResponseDay.unlimited
  let (db, _) ← Submissions.publishAssignment db (member ++ "'s benchmark")
    (confirmed benchmarkId "algorithm" "0" (.int 1)) published evidence ""
  let row ← fetch (db.funds.reservations.lookup (member ++ "'s benchmark"))
    (.funds "no reservation")
  let (db, _) ← acknowledge db (member ++ "'s benchmark") member (row.assignmentDigest.getD .null)
  return db

/-- A block is read and credited. -/
def credited (db : Db) (blockId : String) : Result (Db × BlockSnapshot) := do
  let snapshot ← BlockStore.read db blockId
  let saved ← Qualifiers.poolCredit snapshot "pool"
  let db ← Qualifiers.creditBlock db blockId "pool" saved
  return (db, snapshot)

def worked : Result Db := do
  let db ← asked
  let db ← benchmarked db "member" benchmarkId
  benchmarked db "second" secondId

def run : Result Sys := do
  let db ← worked
  let db ← BlockStore.record db source (some tied) none
  let (db, first) ← credited db "block-0"
  let (db, second) ← credited db "block-1"
  return ⟨db, { Held.empty with snapshots := [("block-1", second), ("block-0", first)] }⟩

def evening : Sys :=
  run.toOption.getD ⟨migrated, Held.empty⟩

/-- A choice made for the first block, in a database that was evaluated. -/
theorem chooses {seen : Option Db} {db : Db} (hseen : seen = some db)
    (hround : seen.all (fun db =>
      (db.observation.blocks.lookup "block-0").all (·.round = 1)) = true)
    {choice : WorkRequests.Selection} {algorithmId : String} (hcreation : choice.creationRound = 1)
    (hevidence : choice.evidence = ResponseDay.selection.evidence)
    (hpayload : choice.payload
      = WorkRequests.proposal "pool" "block-0" "challenge" algorithmId "aws_t3" tracks) :
    WorkRequests.Chooses db "block-0" fun _ => .ok (some choice) := by
  subst hseen
  rintro request _ ⟨⟩
  refine ⟨fun b hb => ?_, ?_, _, _, _, _, _, hpayload⟩
  · have hone : b.round = 1 := by simpa [hb] using hround
    rw [hcreation, hone]
  · rw [hevidence]
    rfl

theorem asked_reachable {db : Db} (h : asked = .ok db) :
    Sys.Reachable (Sys.Pool "pool") ⟨db, Held.empty⟩ := by
  simp only [asked, bind_eq_ok, pure_eq_ok] at h
  obtain ⟨db₁, h₁, ⟨db₂, _⟩, h₂, ⟨db₃, _⟩, h₃, db₄, h₄, ⟨db₅, _⟩, h₅, ⟨db₆, _⟩, h₆, db₇, h₇,
    db₈, h₈, ⟨db₉, _⟩, h₉, ⟨_, _⟩, h₁₀, rfl⟩ := h
  have hopened : Sys.Reachable (Sys.Pool "pool") ⟨db₁, Held.empty⟩ :=
    ⟨_, Sys.initial_migrated, .one (by simp [Sys.Pool]) (.funds (.initializeAccounts h₁))⟩
  have hjoined := (hopened.step (by simp [Sys.Pool]) (.funds (.registerVerified h₂))).step
    (by simp [Sys.Pool]) (.funds (.registerVerified h₃))
  have hcapped := hjoined.step (by simp [Sys.Pool]) (.work (.setCap h₄))
  have hfunded := (hcapped.step (by simp [Sys.Pool]) (.funds (.receive h₅))).step
    (by simp [Sys.Pool]) (.funds (.receive h₆))
  have hwatching := (hfunded.step (by simp [Sys.Pool]) (.observe (.initializeStore h₇))).step
    (by simp [Sys.Pool]) (.observe (.record h₈))
  exact (hwatching.step (by simp [Sys.Pool]) (.work (.create h₉))).step (by simp [Sys.Pool])
    (.work (.create h₁₀))

theorem benchmarked_reachable {db db' : Db} {member benchmarkId : String}
    (hs : Sys.Reachable (Sys.Pool "pool") ⟨db, Held.empty⟩)
    (hchoice : WorkRequests.Chooses db "block-0" fun _ => .ok (some selection))
    (h : benchmarked db member benchmarkId = .ok db') :
    Sys.Reachable (Sys.Pool "pool") ⟨db', Held.empty⟩ := by
  simp only [benchmarked, bind_eq_ok, pure_eq_ok] at h
  obtain ⟨⟨db₁, _⟩, h₁, db₂, h₂, ⟨db₃, _⟩, h₃, ⟨db₄, _⟩, h₄, ⟨db₅, _⟩, h₅, _, -, ⟨_, _⟩, h₆,
    rfl⟩ := h
  have hreserved := hs.step (by simp [Sys.Pool]) (.work (.reserveNext hchoice h₁))
  have hsent := (hreserved.step (by simp [Sys.Pool]) (.work (.recordBinary h₂))).step
    (by simp [Sys.Pool]) (.work (.begin h₃))
  have hpublished := (hsent.step (by simp [Sys.Pool]) (.work (.recordResponse h₄))).step
    (by simp [Sys.Pool]) (.work (.publishAssignment h₅))
  exact hpublished.step (by simp [Sys.Pool]) (.funds (.acknowledge h₆))

theorem worked_reachable {db : Db} (h : worked = .ok db) :
    Sys.Reachable (Sys.Pool "pool") ⟨db, Held.empty⟩ := by
  simp only [worked, bind_eq_ok] at h
  obtain ⟨db₁, hasked, db₂, hfirst, hsecond⟩ := h
  have hrun : (asked >>= fun db => benchmarked db "member" benchmarkId) = .ok db₂ := by
    simp only [hasked, bind_eq_ok, Except.ok.injEq, exists_eq_left', hfirst]
  have hchoice := @chooses _ db₁ (congrArg Except.toOption hasked) (by decide +kernel) selection _
    rfl rfl rfl
  have hagain := @chooses _ db₂ (congrArg Except.toOption hrun) (by decide +kernel) selection _
    rfl rfl rfl
  exact benchmarked_reachable (benchmarked_reachable (asked_reachable hasked) hchoice hfirst)
    hagain hsecond

theorem credited_reachable {db db' : Db} {held : Held} {blockId : String}
    {snapshot : BlockSnapshot} (hs : Sys.Reachable (Sys.Pool "pool") ⟨db, held⟩)
    (h : credited db blockId = .ok (db', snapshot)) :
    Sys.Reachable (Sys.Pool "pool")
      ⟨db', Held.observe { held with snapshots := (blockId, snapshot) :: held.snapshots }
        (.creditBlock blockId "pool") db db'⟩ := by
  simp only [credited, bind_eq_ok, pure_eq_ok] at h
  obtain ⟨_, hread, saved, hsaved, _, hcredit, hend⟩ := h
  obtain ⟨rfl, rfl⟩ := Prod.mk.inj hend
  have hseen := hs.step (by simp [Sys.Pool]) (.hold (.read hread))
  exact hseen.step (by simp [Sys.Pool])
    (.observe (.creditBlock (List.mem_cons_self ..) hsaved hcredit))

theorem reachable : Sys.Reachable (Sys.Pool "pool") evening := by
  have hrun : run = .ok evening := eq_ok_getD (by decide +kernel)
  simp only [run, bind_eq_ok, pure_eq_ok] at hrun
  obtain ⟨db₁, hworked, db₂, hrecord, ⟨db₃, _⟩, hfirst, ⟨db₄, _⟩, hsecond, hend⟩ := hrun
  have hseen := (worked_reachable hworked).step (by simp [Sys.Pool]) (.observe (.record hrecord))
  rw [← hend]
  exact credited_reachable (credited_reachable hseen hfirst) hsecond

/-- What is recorded for the second block: each of the two members has half a qualifier. -/
theorem evening_spec : ∃ b row, evening.db.observation.blocks.lookup "block-1" = some b ∧
    b.credited = some row ∧
    row.credits = [⟨benchmarkId, "member", 1 / 2⟩, ⟨secondId, "second", 1 / 2⟩] ∧
    Qualifiers.requireCoverage evening.db 1 = .ok () ∧
    Qualifiers.creditOf evening.db 1 "member" = 1 / 2 ∧
    Qualifiers.creditOf evening.db 1 "second" = 1 / 2 := by
  have hfacts : (evening.db.observation.blocks.lookup "block-1").any (fun b =>
      b.credited.any fun row =>
        row.credits = [⟨benchmarkId, "member", 1 / 2⟩, ⟨secondId, "second", 1 / 2⟩] ∧
        (Qualifiers.requireCoverage evening.db 1).toOption = some () ∧
        Qualifiers.creditOf evening.db 1 "member" = 1 / 2 ∧
        Qualifiers.creditOf evening.db 1 "second" = 1 / 2) = true := by decide +kernel
  obtain ⟨b, hb, hfacts⟩ := (Option.any_eq_true _ _).mp hfacts
  obtain ⟨row, hrow, hfacts⟩ := (Option.any_eq_true _ _).mp hfacts
  obtain ⟨hcredits, hcover, hmember, hsecond⟩ := of_decide_eq_true hfacts
  exact ⟨b, row, hb, hrow, hcredits, eq_ok_of_toOption hcover, hmember, hsecond⟩

/-- Two tied benchmarks share a qualifier: the row says so, and the credits of the members add
up to what qualifies in the round. -/
theorem credit_ledger_evening : Sys.Reachable (Sys.Pool "pool") evening ∧
    (∃ b row, evening.db.observation.blocks.lookup "block-1" = some b ∧ b.credited = some row ∧
      row.credits = [⟨benchmarkId, "member", 1 / 2⟩, ⟨secondId, "second", 1 / 2⟩] ∧
      row.Fits evening.db.funds b) ∧
    (∀ m ∈ ["member", "second"],
      ((Qualifiers.roundCredits evening.db 1).lookup m).getD 0 = 1 / 2) ∧
    ((Qualifiers.roundCredits evening.db 1).total fun _ credit => credit)
      = evening.db.observation.blocks.total fun _ b =>
        if b.round = 1 then (b.snapshot.qualifiersOf "pool" : ℚ) else 0 := by
  obtain ⟨hrows, hruns⟩ := credit_ledger reachable
  obtain ⟨b, row, hb, hrow, hcredits, hcover, hmember, hsecond⟩ := evening_spec
  obtain ⟨hexact, -, -, htotal⟩ := (hruns evening .refl).2 1 hcover
  refine ⟨reachable, ⟨b, row, hb, hrow, hcredits, (hrows _ b row hb hrow).2⟩, ?_,
    htotal fun _ _ hb _ => AList.lookup_isSome.mp (Option.isSome_iff_exists.mpr ⟨_, hb⟩)⟩
  intro m hm
  rw [hexact m]
  rcases List.mem_pair.mp hm with rfl | rfl
  · exact hmember
  · exact hsecond

end CreditedDay

end TigPool
