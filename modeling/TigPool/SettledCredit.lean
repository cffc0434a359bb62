/-
# `TigPool.SettledCredit` — the credit that a round is settled with

`allocate` adds the credits of a round up before it takes its locks.  Under the locks it looks
at the coverage again, but not at the credits.  With a tolerated or a waived height a block can
still come and be credited in between; its credit is then on record, its height is no longer
missing, and it is not in the settlement.

So the frozen credits are those on record exactly when the reading is not stale.
-/
import TigPool.CreditLedger

namespace TigPool

open Basis

namespace Qualifiers

variable {db db' : Db} {X : ℕ} {m : Uuid}

/-! ## Credit on record, step by step -/

/-- What a list of credits has for a member. -/
def share (credits : List BenchmarkCredit) (m : Uuid) : ℚ :=
  ((credits.filter fun c => c.memberId = m).map (·.credit)).sum

/-- A member's credit in a block, if it is of the round. -/
def shareIn (X : ℕ) (m : Uuid) (b : ObservedBlock) : ℚ :=
  if b.round = X then share (b.credited.elim [] (·.credits)) m else 0

theorem creditOf_eq : creditOf db X m = db.observation.blocks.total fun _ b => shareIn X m b := rfl

theorem share_nonneg {credits : List BenchmarkCredit} (h : ∀ c ∈ credits, 0 ≤ c.credit) :
    0 ≤ share credits m := by
  refine List.sum_nonneg fun x hx => ?_
  obtain ⟨c, hc, rfl⟩ := List.mem_map.mp hx
  exact h c (List.mem_of_mem_filter hc)

theorem share_le {credits : List BenchmarkCredit} (h : ∀ c ∈ credits, 0 ≤ c.credit) :
    share credits m ≤ (credits.map (·.credit)).sum := by
  induction credits with
  | nil => exact le_refl _
  | cons c rest ih =>
      have hrest := ih fun c hc => h c (List.mem_cons_of_mem _ hc)
      have hc := h c (List.mem_cons_self ..)
      simp only [share, List.filter_cons, List.map_cons, List.sum_cons] at hrest ⊢
      split
      · rw [List.map_cons, List.sum_cons]
        exact add_le_add_right hrest _
      · exact hrest.trans (le_add_of_nonneg_left hc)

/-- Credits that do not add up to zero are somebody's. -/
theorem exists_share_pos {credits : List BenchmarkCredit} (h : ∀ c ∈ credits, 0 ≤ c.credit)
    (hsum : (credits.map (·.credit)).sum ≠ 0) : ∃ m, 0 < share credits m := by
  by_contra hnone
  push Not at hnone
  refine hsum ?_
  rw [← sum_by_member (List.nodup_dedup (credits.map (·.memberId))) fun c hc =>
    List.mem_dedup.mpr (List.mem_map.mpr ⟨c, hc, rfl⟩)]
  refine List.sum_eq_zero fun x hx => ?_
  obtain ⟨m, -, rfl⟩ := List.mem_map.mp hx
  exact le_antisymm (hnone m) (share_nonneg h)

/-- What a step does to the credit on record, told by whether it commits credit. -/
structure Records (db db' : Db) : Prop where
  grows : ∀ X m, creditOf db X m ≤ creditOf db' X m
  quiet : ∀ {X}, Held.creditCommitted db db' X = false → ∀ m, creditOf db' X m = creditOf db X m
  committed : ∀ {X}, Held.creditCommitted db db' X = true → ∃ m, creditOf db X m < creditOf db' X m

theorem creditCommitted_eq_true : Held.creditCommitted db db' X = true ↔
    ∃ id b row, db'.observation.blocks.lookup id = some b ∧ b.round = X ∧
      ((db.observation.blocks.lookup id).bind (·.credited)) = none ∧ b.credited = some row ∧
      row.total ≠ 0 := by
  rw [Held.creditCommitted, Table.any_iff]
  constructor
  · rintro ⟨id, b, hb, h⟩
    obtain ⟨hround, hnone, hrow⟩ := of_decide_eq_true h
    obtain ⟨row, hrow, htotal⟩ := (Option.any_eq_true _ _).mp hrow
    exact ⟨id, b, row, hb, hround, Option.isNone_iff_eq_none.mp hnone, hrow,
      of_decide_eq_true htotal⟩
  · rintro ⟨id, b, row, hb, hround, hnone, hrow, htotal⟩
    refine ⟨id, b, hb, decide_eq_true ⟨hround, by rw [hnone]; rfl, ?_⟩⟩
    rw [hrow]
    exact decide_eq_true htotal

theorem creditCommitted_self : Held.creditCommitted db db X = false := by
  refine Bool.eq_false_iff.mpr fun hcommitted => ?_
  obtain ⟨id, b, row, hb, -, hnone, hrow, -⟩ := creditCommitted_eq_true.mp hcommitted
  rw [hb, Option.bind_some, hrow] at hnone
  cases hnone

/-- A block is credited. -/
theorem Records.of_credited {blockId : String} {block : ObservedBlock} {row : CreditedBlock}
    (hblock : db.observation.blocks.lookup blockId = some block) (hnone : block.credited = none)
    (hsum : (row.credits.map (·.credit)).sum = row.total)
    (hnonneg : ∀ c ∈ row.credits, 0 ≤ c.credit) :
    Records db (putCredited db blockId block row) := by
  have hmoves : ∀ X m, creditOf (putCredited db blockId block row) X m
      = creditOf db X m + if block.round = X then share row.credits m else 0 := by
    intro X m
    have hold : shareIn X m block = 0 := by
      rw [shareIn, hnone]
      exact ite_self _
    rw [creditOf_eq, creditOf_eq, putCredited, Table.total_insert_of_lookup hblock, hold, sub_zero]
    rfl
  refine ⟨fun X m => ?_, fun {X} hquiet m => ?_, fun {X} hcommitted => ?_⟩
  · rw [hmoves]
    refine le_add_of_nonneg_right ?_
    split
    · exact share_nonneg hnonneg
    · exact le_refl _
  · rw [hmoves, add_eq_left]
    split
    next hround =>
      have hzero : row.total = 0 := by
        by_contra htotal
        have htrue : Held.creditCommitted db (putCredited db blockId block row) X = true :=
          creditCommitted_eq_true.mpr ⟨blockId, _, row, AList.lookup_insert _, hround,
            by rw [hblock, Option.bind_some, hnone], rfl, htotal⟩
        rw [hquiet] at htrue
        cases htrue
      refine le_antisymm ?_ (share_nonneg hnonneg)
      rw [← hzero, ← hsum]
      exact share_le hnonneg
    next => rfl
  · obtain ⟨id, b, row', hb, hround, hunknown, hrow, htotal⟩ :=
      creditCommitted_eq_true.mp hcommitted
    rcases Table.lookup_insert_cases hb with ⟨rfl, rfl⟩ | ⟨-, hb⟩
    · obtain rfl := Option.some.inj hrow
      obtain ⟨m, hm⟩ := exists_share_pos hnonneg (by rw [hsum]; exact htotal)
      refine ⟨m, ?_⟩
      rw [hmoves, if_pos hround]
      exact lt_add_of_pos_right _ hm
    · rw [hb, Option.bind_some, hrow] at hunknown
      cases hunknown

theorem creditRow_nonneg {playerId : String} {saved : PoolCredit}
    (h : saved.byBenchmark.any (fun _ credit => credit < 0) = false) :
    ∀ c ∈ (creditRow db playerId saved).credits, 0 ≤ c.credit := by
  intro c hc
  obtain ⟨o, -, hmap⟩ := List.mem_filterMap.mp hc
  obtain ⟨credit, hlookup, rfl⟩ := Option.map_eq_some_iff.mp hmap
  have hcredit := Table.any_eq_false.mp h _ _ hlookup
  exact not_lt.mp (of_decide_eq_false hcredit)

end Qualifiers

section

variable {held : Held} {db db' : Db} {a : ObservationAction}

/-- Only crediting a block commits credit. -/
theorem ObservationStep.committed (h : ObservationStep held db a db') {X : ℕ}
    (hcommitted : Held.creditCommitted db db' X = true) : ∃ blockId p b,
      a = .creditBlock blockId p ∧ db.observation.blocks.lookup blockId = some b ∧
        b.credited = none ∧ b.round = X := by
  obtain ⟨id, b, row, hb, hround, hnone, hrow, -⟩ :=
    Qualifiers.creditCommitted_eq_true.mp hcommitted
  have hnew : ¬ db.observation.blocks.lookup id = some b := by
    intro hold
    rw [hold, Option.bind_some, hrow] at hnone
    cases hnone
  have hchange := h.blockChanges
  generalize db'.observation.blocks = blocks at hchange hb
  cases hchange with
  | same => exact absurd hb hnew
  | saved =>
      rcases Table.lookup_insert_cases hb with ⟨-, rfl⟩ | ⟨-, hold⟩
      · cases hrow
      · exact absurd hold hnew
  | @credited blockId p block _ hblock hunknown =>
      rcases Table.lookup_insert_cases hb with ⟨-, rfl⟩ | ⟨-, hold⟩
      · exact ⟨blockId, p, block, rfl, hblock, hunknown, hround⟩
      · exact absurd hold hnew

theorem ObservationStep.records (h : ObservationStep held db a db') :
    Qualifiers.Records db db' := by
  have hstill : (∀ X m, Qualifiers.creditOf db' X m = Qualifiers.creditOf db X m) →
      (∀ X, Held.creditCommitted db db' X = false) → Qualifiers.Records db db' := by
    intro hsame hquiet
    refine ⟨fun X m => (hsame X m).ge, fun _ => hsame _, fun {X} hcommitted => ?_⟩
    rw [hquiet] at hcommitted
    cases hcommitted
  by_cases hcredit : ∃ b p, a = .creditBlock b p
  · obtain ⟨blockId, p, rfl⟩ := hcredit
    cases h with
    | @creditBlock _ _ _ saved _ _ hsaved h =>
        rcases Qualifiers.creditBlock_cases h with
          rfl | ⟨block, hblock, hnone, howners, hkeys, -, hnonneg, rfl⟩
        · exact hstill (fun _ _ => rfl) fun _ => Qualifiers.creditCommitted_self
        · have hnodup : saved.owned.Nodup := by
            rw [(Qualifiers.poolCredit_spec hsaved).1]
            exact AList.keys_nodup _
          exact .of_credited hblock hnone (Qualifiers.creditRow_sum hnodup howners hkeys)
            (Qualifiers.creditRow_nonneg hnonneg)
  · refine hstill (fun X m => ?_) fun X => Bool.eq_false_iff.mpr fun hcommitted => ?_
    · have hchange := h.blockChanges
      rw [Qualifiers.creditOf_eq, Qualifiers.creditOf_eq]
      generalize db'.observation.blocks = blocks at hchange ⊢
      cases hchange with
      | same => rfl
      | saved _ _ hfresh =>
          rw [Table.total_insert_fresh (AList.lookup_eq_none.mpr hfresh), add_eq_right]
          exact ite_self _
      | credited => exact absurd ⟨_, _, rfl⟩ hcredit
    · obtain ⟨blockId, p, _, rfl, -⟩ := h.committed hcommitted
      exact hcredit ⟨blockId, p, rfl⟩

end

/-! ## Readings -/

/-- A reading that is not stale has the credit on record, and a stale one has less. -/
structure CreditReading.Reads (r : CreditReading) (db : Db) : Prop where
  below : ∀ m, (r.credits.lookup m).getD 0 ≤ Qualifiers.creditOf db r.round m
  fresh : r.stale = false → ∀ m, (r.credits.lookup m).getD 0 = Qualifiers.creditOf db r.round m
  late : r.stale = true → ∃ m, (r.credits.lookup m).getD 0 < Qualifiers.creditOf db r.round m

namespace CreditReading.Reads

variable {r : CreditReading} {db db' : Db}

theorem step (h : r.Reads db) (hrecords : Qualifiers.Records db db') :
    (if Held.creditCommitted db db' r.round then { r with stale := true } else r).Reads db' := by
  have hbelow : ∀ m, (r.credits.lookup m).getD 0 ≤ Qualifiers.creditOf db' r.round m :=
    fun m => (h.below m).trans (hrecords.grows r.round m)
  split
  next hcommitted =>
    refine ⟨hbelow, fun hstale => (nomatch hstale), fun _ => ?_⟩
    obtain ⟨m, hm⟩ := hrecords.committed hcommitted
    exact ⟨m, (h.below m).trans_lt hm⟩
  next hquiet =>
    have hsame := hrecords.quiet (Bool.eq_false_iff.mpr hquiet)
    refine ⟨hbelow, fun hstale m => ?_, fun hstale => ?_⟩
    · rw [hsame]
      exact h.fresh hstale m
    · obtain ⟨m, hm⟩ := h.late hstale
      exact ⟨m, by rw [hsame]; exact hm⟩

theorem exact_iff (h : r.Reads db) :
    (∀ m, (r.credits.lookup m).getD 0 = Qualifiers.creditOf db r.round m) ↔ r.stale = false := by
  refine ⟨fun hsame => ?_, h.fresh⟩
  by_contra hstale
  obtain ⟨m, hm⟩ := h.late (Bool.eq_true_of_not_eq_false hstale)
  exact hm.ne (hsame m)

end CreditReading.Reads

namespace Sys

variable {s s' : Sys} {a : Action} {allowed : Sys → Action → Prop}

/-- Every reading that is held. -/
def Readings (s : Sys) : Prop :=
  ∀ r ∈ s.held.readings, r.Reads s.db

theorem Step.readings (hs : s.Lawful) (hr : s.Readings) (h : Step s a s') : s'.Readings := by
  by_cases ho : ∃ o, a = .observe o
  · obtain ⟨o, rfl⟩ := ho
    cases h with
    | observe h =>
        intro r' hr'
        obtain ⟨r, hmem, rfl⟩ := List.mem_map.mp hr'
        exact (hr r hmem).step h.records
  · have hsame := h.observation hs fun o ha => ho ⟨o, ha⟩
    have hold : ∀ r ∈ s.held.readings, r.Reads s'.db := by
      intro r hmem
      obtain ⟨hbelow, hfresh, hlate⟩ := hr r hmem
      simp only [Qualifiers.creditOf_eq] at hbelow hfresh hlate
      rw [← hsame] at hbelow hfresh hlate
      exact ⟨hbelow, hfresh, hlate⟩
    cases h with
    | observe => exact absurd ⟨_, rfl⟩ ho
    | hold h =>
        cases h with
        | credits =>
            intro r hmem
            rcases List.mem_cons.mp hmem with rfl | hmem
            · exact ⟨fun m => (Qualifiers.roundCredits_getD m).le,
                fun _ m => Qualifiers.roundCredits_getD m, fun hstale => nomatch hstale⟩
            · exact hold r hmem
        | _ => exact hold
    | _ => exact hold

theorem Reachable.readings (h : Reachable allowed s) : s.Readings := by
  refine Reachable.invariant (I := Readings) h ?_ ?_
  · intro s hs r hr
    rw [hs.held] at hr
    cases hr
  · intro s a s' _ hs hr hstep
    exact hstep.readings hs.lawful hr

end Sys

namespace Sys

variable {s s' : Sys} {a : Action} {allowed : Sys → Action → Prop}

theorem Step.credit_nonneg (hs : s.Lawful)
    (hold : ∀ id b row, s.db.observation.blocks.lookup id = some b → b.credited = some row →
      ∀ c ∈ row.credits, 0 ≤ c.credit)
    (h : Step s a s') {id : String} {b : ObservedBlock} {row : CreditedBlock}
    (hb : s'.db.observation.blocks.lookup id = some b) (hrow : b.credited = some row) :
    ∀ c ∈ row.credits, 0 ≤ c.credit := by
  by_cases ho : ∃ o, a = .observe o
  · obtain ⟨o, rfl⟩ := ho
    cases h with
    | observe h =>
        by_cases hcredit : ∃ blockId p, o = .creditBlock blockId p
        · obtain ⟨blockId, p, rfl⟩ := hcredit
          cases h with
          | creditBlock _ _ h =>
              rcases Qualifiers.creditBlock_cases h with
                rfl | ⟨block, -, -, -, -, -, hnonneg, rfl⟩
              · exact hold id b row hb hrow
              · rcases Table.lookup_insert_cases hb with ⟨rfl, rfl⟩ | ⟨-, hb⟩
                · obtain rfl := Option.some.inj hrow
                  exact Qualifiers.creditRow_nonneg hnonneg
                · exact hold id b row hb hrow
        · have hsaves := @ObservationStep.saves _ _ _ _ (fun _ _ => False) h
            (fun b p ha => hcredit ⟨b, p, ha⟩) id
          refine hsaves.keeps (P := fun b => ∀ row, b.credited = some row →
            ∀ c ∈ row.credits, 0 ≤ c.credit) (fun b hb row => hold id b row hb) ?_ ?_ b hb row hrow
          · intro b hsaved row hrow
            rw [hsaved.credited] at hrow
            cases hrow
          · exact fun _ _ _ hfalse => hfalse.elim
  · rw [h.observation hs fun o ha => ho ⟨o, ha⟩] at hb
    exact hold id b row hb hrow

/-- No credit on record is negative. -/
theorem Reachable.credit_nonneg (h : Reachable allowed s) {id : String} {b : ObservedBlock}
    {row : CreditedBlock} (hb : s.db.observation.blocks.lookup id = some b)
    (hrow : b.credited = some row) : ∀ c ∈ row.credits, 0 ≤ c.credit := by
  have hall : ∀ id b row, s.db.observation.blocks.lookup id = some b → b.credited = some row →
      ∀ c ∈ row.credits, 0 ≤ c.credit := by
    refine Reachable.invariant (I := fun s => ∀ id b row,
      s.db.observation.blocks.lookup id = some b → b.credited = some row →
        ∀ c ∈ row.credits, 0 ≤ c.credit) h ?_ ?_
    · intro s hs id b row hb
      rw [hs.blocks] at hb
      cases hb
    · intro s a s' _ hs hold hstep id b row
      exact hstep.credit_nonneg hs.lawful hold
  exact hall id b row hb hrow

end Sys

/-! ## What a settlement freezes -/

/-- What a settlement freezes for a member. -/
def SettlementInputs.creditOf (inputs : SettlementInputs) (m : Uuid) : ℚ :=
  ((inputs.credits.filter fun c => c.1 = m).map (·.2)).sum

/-- The frozen credit of each member is that of all credit rows of the round. -/
def SettlementInputs.Exact (inputs : SettlementInputs) (db : Db) (X : ℕ) : Prop :=
  ∀ m, inputs.creditOf m = Qualifiers.creditOf db X m

/-- Each height of the round is one that the settlement lists, and has no block of the round, or
has a credited block whose whole credit is in the settlement. -/
def SettlementInputs.Covers (inputs : SettlementInputs) (db : Db) (X : ℕ) : Prop :=
  ∃ length, (∀ id b, db.observation.blocks.lookup id = some b → b.round = X →
      b.blocksPerRound = length) ∧
    ∀ height ∈ BlockStore.roundHeights X length,
      ((height ∈ inputs.missingHeights ∨ height ∈ inputs.waivedHeights) ∧
        ∀ id b, db.observation.blocks.lookup id = some b → b.round = X → b.height ≠ height) ∨
      ∃ id b row, db.observation.blocks.lookup id = some b ∧ b.round = X ∧ b.height = height ∧
        b.credited = some row ∧ ∀ m, Qualifiers.share row.credits m ≤ inputs.creditOf m

/-- The credit of a block of the round is contained in that of the round. -/
theorem Qualifiers.share_le_creditOf {db : Db} {X : ℕ}
    (hnonneg : ∀ {id b row}, db.observation.blocks.lookup id = some b → b.credited = some row →
      ∀ c ∈ row.credits, 0 ≤ c.credit)
    {id : String} {b : ObservedBlock} {row : CreditedBlock}
    (hb : db.observation.blocks.lookup id = some b) (hround : b.round = X)
    (hrow : b.credited = some row) (m : Uuid) : share row.credits m ≤ creditOf db X m := by
  have hshare : shareIn X m b = share row.credits m := by
    rw [shareIn, if_pos hround, hrow]
    rfl
  rw [creditOf_eq, Table.total_erase_add hb, hshare]
  refine le_add_of_nonneg_right (Table.total_nonneg fun id' b' hb' => ?_)
  have hb' := (Table.lookup_erase_cases hb').2
  rw [shareIn]
  split
  · cases hcredit : b'.credited with
    | none => exact le_refl _
    | some row' => exact share_nonneg (hnonneg hb' hcredit)
  · exact le_refl _

theorem BlockStore.roundGaps_covers {db : Db} {X : ℕ} {gaps : RoundGaps}
    (h : roundGaps db X = .ok gaps) (hcomplete : gaps.creditedComplete = true)
    {inputs : SettlementInputs} (hmissing : inputs.missingHeights = gaps.missingHeights)
    (hwaived : inputs.waivedHeights = gaps.waivedHeights) (hexact : inputs.Exact db X)
    (hnonneg : ∀ {id b row}, db.observation.blocks.lookup id = some b → b.credited = some row →
      ∀ c ∈ row.credits, 0 ≤ c.credit) : inputs.Covers db X := by
  simp only [roundGaps, bind_eq_ok] at h
  obtain ⟨policy, -, h⟩ := h
  split at h
  next length hlengths =>
    obtain rfl := Except.ok.inj h
    refine ⟨length, fun id b hb hround => ?_, fun height hheight => ?_⟩
    · have hmem : b.blocksPerRound ∈ roundLengths db X :=
        List.mem_dedup.mpr (List.mem_map.mpr ⟨⟨id, b⟩,
          List.mem_filter.mpr ⟨Table.mem_entries_iff.mpr hb, by simpa using hround⟩, rfl⟩)
      rw [hlengths] at hmem
      exact List.mem_singleton.mp hmem
    · simp only [decide_eq_true_eq] at hcomplete
      obtain ⟨⟨-, -, hfew⟩, hcredited⟩ := hcomplete
      cases hblock : blockOfRound db X height with
      | none =>
          have hunobserved : height ∈ (roundHeights X length).filter
              fun h => (blockOfRound db X h).isNone :=
            List.mem_filter.mpr ⟨hheight, by rw [hblock]; rfl⟩
          refine .inl ⟨?_, fun id b hb hround hsame => ?_⟩
          · rw [hmissing, hwaived]
            by_cases hw : isWaived db X height = true
            · exact .inr (List.mem_filter.mpr ⟨hunobserved, hw⟩)
            · refine .inl ?_
              rw [List.take_of_length_le (hfew.trans (le_max_right _ _))]
              exact List.mem_filter.mpr ⟨hunobserved, by simpa using hw⟩
          · have hnot := Table.find_eq_none.mp (Option.map_eq_none_iff.mp hblock) id b hb
            exact of_decide_eq_false hnot ⟨by exact_mod_cast hsame, hround⟩
      | some b =>
          obtain ⟨⟨id, b⟩, hfind, rfl⟩ := Option.map_eq_some_iff.mp hblock
          obtain ⟨hb, hsame⟩ := Table.find_eq_some hfind
          obtain ⟨hat, hround⟩ := of_decide_eq_true hsame
          have hnone := List.countP_eq_zero.mp hcredited height hheight
          rw [hblock] at hnone
          obtain ⟨row, hrow⟩ : ∃ row, b.credited = some row := by
            rw [← Option.ne_none_iff_exists']
            intro hcredit
            exact hnone (by rw [Option.any_some]; exact Option.isNone_iff_eq_none.mpr hcredit)
          refine .inr ⟨id, b, row, hb, hround, by exact_mod_cast hat, hrow, fun m => ?_⟩
          rw [hexact m]
          exact Qualifiers.share_le_creditOf hnonneg hb hround hrow m
  next =>
    obtain rfl := Except.ok.inj h
    cases hcomplete

namespace Settlement

/-- The entries of a member in the sorted credits are what the table has under the member. -/
theorem sum_sorted (credits : Table String ℚ) (m : String) :
    (((sorted credits).filter fun c => c.1 = m).map (·.2)).sum = (credits.lookup m).getD 0 := by
  have hperm := ((List.perm_insertionSort (fun a b : String × ℚ => a.1 ≤ b.1)
    (credits.entries.map fun e => (e.1, e.2))).filter fun c => c.1 = m).map (·.2)
  have htotal : (((credits.entries.map fun e => (e.1, e.2)).filter fun c => c.1 = m).map (·.2)).sum
      = (Table.filter (fun k _ => k = m) credits).total fun _ credit => credit := by
    rw [List.filter_map, List.map_map]
    rfl
  rw [sorted, hperm.sum_eq, htotal, Table.total_filter]
  cases hm : credits.lookup m with
  | none =>
      refine Table.total_eq_zero fun k a hk => if_neg fun hkm => ?_
      rw [of_decide_eq_true hkm, hm] at hk
      cases hk
  | some credit =>
      rw [Table.total_eq_single hm fun k _ hne _ => if_neg fun hkm => hne (of_decide_eq_true hkm)]
      exact if_pos (decide_eq_true rfl)

/-- A new settlement has the credits of the reading, and the heights that the coverage under the
locks lists. -/
theorem allocate_freezes {db db' : Db} {round : ℕ} {sealId : Uuid} {credits : Table String ℚ}
    {expected : Option SettlementInputs} {out : RoundSettlement}
    (h : allocate db round sealId credits expected = .ok (db', out))
    (hnew : (db.funds.roundEarnings.lookup round).bind (·.settlement) = none) :
    (db'.funds.roundEarnings.lookup round).bind (·.settlement) = some out ∧
      out.inputs.credits = sorted credits ∧ ∃ gaps, BlockStore.roundGaps db round = .ok gaps ∧
        gaps.creditedComplete = true ∧ out.inputs.missingHeights = gaps.missingHeights ∧
        out.inputs.waivedHeights = gaps.waivedHeights := by
  simp only [allocate, hnew, bind_eq_ok, require_eq_ok, exists_const, fetch_eq_ok,
    ite_bind_eq_ok, pure_eq_ok, Prod.mk.injEq] at h
  obtain ⟨-, ⟨inputs, amount, operator, allocations⟩, hprepare, -, earnings, -, ledger, -, rfl,
    rfl⟩ := h
  refine ⟨?_, ?_⟩
  · show ((AList.insert round _ _).lookup round).bind _ = _
    rw [AList.lookup_insert]
    rfl
  · simp only [prepare, bind_eq_ok, require_eq_ok, exists_const, pure_eq_ok,
      Prod.mk.injEq] at hprepare
    obtain ⟨_, -, gaps, hgaps, hcomplete, _, -, _, -, -, -, -, _, -, -, _, -, -, rfl, -⟩ := hprepare
    exact ⟨rfl, gaps, hgaps, hcomplete, rfl, rfl⟩

end Settlement

namespace Sys

variable {s s' : Sys} {a : Action}

/-- No block of a round is credited while the credits of the round are held that it may yet be
settled with. -/
def Timely (s : Sys) (a : Action) : Prop :=
  ∀ blockId p, a = .observe (.creditBlock blockId p) →
    ∀ b, s.db.observation.blocks.lookup blockId = some b → b.credited = none →
      ∀ r ∈ s.held.readings, r.round = b.round →
        (s.db.funds.roundEarnings.lookup r.round).bind (·.settlement) ≠ none

/-- Credits that are held for a round which has not settled are not stale. -/
def Current (s : Sys) : Prop :=
  ∀ r ∈ s.held.readings,
    (s.db.funds.roundEarnings.lookup r.round).bind (·.settlement) = none → r.stale = false

theorem Step.current (hs : s.Lawful) (hc : s.Current) (ht : s.Timely a) (h : Step s a s') :
    s'.Current := by
  have hback : ∀ {X}, (s'.db.funds.roundEarnings.lookup X).bind (·.settlement) = none →
      (s.db.funds.roundEarnings.lookup X).bind (·.settlement) = none := by
    intro X hnone
    by_contra hsettled
    obtain ⟨row, hrow⟩ := Option.ne_none_iff_exists'.mp hsettled
    obtain ⟨e, he, hsettlement⟩ := Option.bind_eq_some_iff.mp hrow
    obtain ⟨e', he', hextends⟩ := (h.extends hs).earnings he
    rw [he', Option.bind_some, hextends.settlement row hsettlement] at hnone
    cases hnone
  cases h with
  | @observe db db' held o h =>
      intro r' hr' hnone
      obtain ⟨r, hmem, rfl⟩ := List.mem_map.mp hr'
      by_cases hcommitted : Held.creditCommitted db db' r.round = true
      · rw [if_pos hcommitted] at hnone
        obtain ⟨blockId, p, b, rfl, hb, hunknown, hround⟩ := h.committed hcommitted
        exact absurd (hback hnone) (ht blockId p rfl b hb hunknown r hmem hround.symm)
      · rw [if_neg hcommitted] at hnone ⊢
        exact hc r hmem (hback hnone)
  | hold h =>
      cases h with
      | credits =>
          intro r hmem hnone
          rcases List.mem_cons.mp hmem with rfl | hmem
          · rfl
          · exact hc r hmem hnone
      | _ => exact fun r hmem hnone => hc r hmem (hback hnone)
  | _ => exact fun r hmem hnone => hc r hmem (hback hnone)

theorem Reachable.current (h : Reachable Timely s) : s.Current := by
  refine Reachable.invariant (I := Current) h ?_ ?_
  · intro s hs r hr
    rw [hs.held] at hr
    cases hr
  · intro s a s' ht hs hc hstep
    exact hstep.current hs.lawful hc ht

end Sys

/-- Whenever `allocate` inserts the settlement of a round, in any reachable state and with any
reading of the credits that is held: the row is on record, each height of the round is listed or
has a credited block, and the frozen credits are those on record exactly when no credit of the
round has been committed since they were read.  In runs that credit no block of a round between
the reading and the settlement they always are. -/
theorem settled_credit {s : Sys} (hs : Sys.Reachable Sys.Any s) {reading : CreditReading}
    (hreading : reading ∈ s.held.readings) {sealId : Uuid} {expected : Option SettlementInputs}
    {out : RoundSettlement} {db' : Db}
    (h : Settlement.allocate s.db reading.round sealId reading.credits expected = .ok (db', out))
    (hnew : (s.db.funds.roundEarnings.lookup reading.round).bind (·.settlement) = none) :
    (db'.funds.roundEarnings.lookup reading.round).bind (·.settlement) = some out ∧
      (out.inputs.Exact s.db reading.round ∧ out.inputs.Covers s.db reading.round
        ↔ reading.stale = false) ∧
      (Sys.Reachable Sys.Timely s →
        out.inputs.Exact s.db reading.round ∧ out.inputs.Covers s.db reading.round) := by
  obtain ⟨hinserted, hcredits, gaps, hgaps, hcomplete, hmissing, hwaived⟩ :=
    Settlement.allocate_freezes h hnew
  have hexact : out.inputs.Exact s.db reading.round ↔ reading.stale = false := by
    rw [← (hs.readings reading hreading).exact_iff]
    simp only [SettlementInputs.Exact, SettlementInputs.creditOf, hcredits, Settlement.sum_sorted]
  have hboth : out.inputs.Exact s.db reading.round ∧ out.inputs.Covers s.db reading.round
      ↔ reading.stale = false := by
    rw [← hexact, and_iff_left_iff_imp]
    exact fun h => BlockStore.roundGaps_covers hgaps hcomplete hmissing hwaived h hs.credit_nonneg
  exact ⟨hinserted, hboth, fun htimely => hboth.mpr (htimely.current reading hreading hnew)⟩

/-! ## A late block -/

namespace LateDay

open CreditedDay (benchmarkId evidence precommit published selection)

/-- The feed of the pool while nothing is under way. -/
def quietFeed : Json :=
  .obj [("benchmarks", .arr []), ("frauds", .arr []), ("precommits", .arr []), ("proofs", .arr [])]

/-- Rounds have two blocks. -/
def blockAt (blockId : String) (height round : ℕ) : BlockStore.BlockCapture :=
  { FirstDay.block with
    blockId, height, round, previousId := "before " ++ blockId, blocksPerRound := 2
    semanticDigest := "digest of " ++ blockId, accepted := ["digest of " ++ blockId]
    snapshot := ⟨[], ∅, ∅, AList.insert "pool" quietFeed ∅⟩
    valid := ⟨by simp, by simp, fun _ => Nat.zero_le _⟩ }

def bundle : Bundle := ⟨benchmarkId, 0, "pool", "challenge", "algorithm", "track", 1⟩

/-- The second block of the second round, in which the pool's benchmark qualifies. -/
def late : BlockStore.BlockCapture :=
  { blockAt "block-3" 3 2 with
    previousId := "block-2"
    snapshot :=
      ⟨[bundle], AList.insert bundle.group 1 ∅, AList.insert benchmarkId "pool" ∅, ∅⟩
    valid := ⟨by decide, by decide, fun group => by
      rw [Table.lookup_insert_eq]
      split
      next heq => rw [heq]; decide
      next => exact Nat.zero_le _⟩ }

def source (blockId : String) : BlockStore.Source where
  attemptId := "attempt " ++ blockId
  blockId := some blockId
  chunks := ["chunk " ++ blockId]
  poolPlayer := some "pool"

def transfer : ConfirmedTransfer :=
  { FirstDay.deposit with
    txHash := "0x02", sender := "0x00000000000000000000000000000000000000ee"
    amount := 100 * tig }

/-- The member waits for work. -/
def queued : Result Db := do
  let db ← initializeAccounts migrated
  let (db, _) ← registerVerified db FirstDay.wallet "member"
  let db ← setCap db 3600 FirstDay.limits "operator" "start" "cap" "cap"
  let (db, _) ← Deposits.receive db FirstDay.deposit
  let db ← BlockStore.initializeStore db 0
  let db ← BlockStore.record db (source "block-0") (some (blockAt "block-0" 0 1)) none
  let (db, _) ← WorkRequests.create db "member" "work" "CPU" "aws_t3" FirstDay.capacity 60
    "request"
  return db

/-- A benchmark of the member is handed over. -/
def worked : Result Db := do
  let db ← queued
  let (db, _) ← WorkRequests.reserveNext db "block-0" (fun _ => .ok (some selection)) ["request"]
    FirstDay.around (fun _ => .ok ()) ⟨"benchmark", "intent"⟩
  let db ← Submissions.recordBinary db "benchmark" ResponseDay.url "digest"
  let (db, _) ← Submissions.begin db "intent" (some ResponseDay.preflight) FirstDay.around
  let (db, _) ← Submissions.recordResponse db "intent" ResponseDay.first "response"
    ResponseDay.unlimited
  let (db, _) ← Submissions.publishAssignment db "benchmark" precommit published evidence ""
  let digest := ((db.funds.reservations.lookup "benchmark").bind (·.assignmentDigest)).getD .null
  let (db, _) ← acknowledge db "benchmark" "member" digest
  return db

/-- The second round has ended without its second block, and its reward is there. -/
def rewarded (db : Db) : Result (Db × BlockSnapshot) := do
  let db ← BlockStore.record db (source "block-2") (some (blockAt "block-2" 2 2)) none
  let db ← BlockStore.record db (source "block-8") (some (blockAt "block-8" 8 5)) none
  let snapshot ← BlockStore.read db "block-2"
  let saved ← Qualifiers.poolCredit snapshot "pool"
  let db ← Qualifiers.creditBlock db "block-2" "pool" saved
  let db ← Reports.scope db 2 [2] "v1" evidence
  let (db, _) ← Reports.record db 2 "block-8"
    (.obj [("arbitrations", .arr []), ("reports", .arr [])]) (.obj []) none "capture"
  let (db, _) ← Reports.sealRound db 2 ["capture"] "block-8" "seal"
  let (db, _) ← Settlement.declareEarnings db 2 (100 * tig) 0 "block-8" evidence
  let db ← ChainObserver.recordTransfer db transfer
  let (db, _) ← Settlement.attributeReceipt db 2 transfer evidence
  let _ ← Qualifiers.requireCoverage db 2
  return (db, snapshot)

/-- The late block is saved and credited. -/
def credited (db : Db) : Result (Db × BlockSnapshot) := do
  let db ← BlockStore.record db (source "block-3") (some late) none
  let snapshot ← BlockStore.read db "block-3"
  let saved ← Qualifiers.poolCredit snapshot "pool"
  let db ← Qualifiers.creditBlock db "block-3" "pool" saved
  return (db, snapshot)

def day : Result ((Db × BlockSnapshot) × (Db × RoundSettlement) × (Db × BlockSnapshot) ×
    (Db × RoundSettlement)) := do
  let db ← worked
  let first ← rewarded db
  let credits := Qualifiers.roundCredits first.1 2
  let early ← Settlement.allocate first.1 2 "seal" credits none
  let second ← credited first.1
  let out ← Settlement.allocate second.1 2 "seal" credits none
  return (first, early, second, out)

/-- What is done on the day. -/
def acts : Action → Bool
  | .funds .initializeAccounts | .funds .registerVerified | .funds (.receive _ _)
  | .funds (.acknowledge _) | .funds (.declareEarnings _) | .funds (.recordTransfer _)
  | .funds (.attributeReceipt _ _) => true
  | .report .scope | .report .record | .report .sealRound => true
  | .observe .initializeStore | .observe (.record _ _ _) | .observe (.creditBlock _ _) => true
  | .work .setCap | .work .create | .work (.reserveNext _) | .work .recordBinary
  | .work (.begin _) | .work (.recordResponse _) | .work (.publishAssignment _) => true
  | .hold .coverage | .hold .credits | .hold .read => true
  | _ => false

theorem acts_whole {s : Sys} {a : Action} (h : acts a = true) : Sys.Whole s a := by
  rintro part rfl
  cases part <;> first | rfl | cases h

theorem queued_leads {allowed : Sys → Action → Prop}
    (hallowed : ∀ s a, acts a = true → s.held.readings = [] →
      (∀ block c seen, a = .observe (.record block c seen) →
        block = source "block-0" ∧ c = some (blockAt "block-0" 0 1)) → allowed s a)
    {db : Db} (h : queued = .ok db) :
    Leads Sys.Step allowed ⟨migrated, Held.empty⟩ ⟨db, Held.empty⟩ := by
  have hothers {db : Db} {a : Action} (ha : acts a = true)
      (hrecord : ∀ block c seen, a ≠ .observe (.record block c seen)) :
      allowed ⟨db, Held.empty⟩ a :=
    hallowed _ a ha rfl fun _ _ _ heq => absurd heq (hrecord _ _ _)
  simp only [queued, bind_eq_ok, pure_eq_ok] at h
  obtain ⟨db₁, h₁, ⟨db₂, _⟩, h₂, db₃, h₃, ⟨db₄, _⟩, h₄, db₅, h₅, db₆, h₆, ⟨_, _⟩, h₇, rfl⟩ := h
  have hfirst : allowed ⟨db₅, Held.empty⟩
      (.observe (.record (source "block-0") (some (blockAt "block-0" 0 1)) none)) := by
    refine hallowed _ _ rfl rfl ?_
    rintro _ _ _ ⟨⟩
    exact ⟨rfl, rfl⟩
  have hopened : Leads Sys.Step allowed ⟨migrated, Held.empty⟩ ⟨db₁, Held.empty⟩ :=
    .one (hothers rfl (by simp)) (.funds (.initializeAccounts h₁))
  have hcapped := (hopened.step (hothers rfl (by simp)) (.funds (.registerVerified h₂))).step
    (hothers rfl (by simp)) (.work (.setCap h₃))
  have hwatching := (hcapped.step (hothers rfl (by simp)) (.funds (.receive h₄))).step
    (hothers rfl (by simp)) (.observe (.initializeStore h₅))
  exact (hwatching.step hfirst (.observe (.record h₆))).step (hothers rfl (by simp))
    (.work (.create h₇))

theorem worked_leads {allowed : Sys → Action → Prop}
    (hallowed : ∀ s a, acts a = true → s.held.readings = [] →
      (∀ block c seen, a = .observe (.record block c seen) →
        block = source "block-0" ∧ c = some (blockAt "block-0" 0 1)) → allowed s a)
    {db : Db} (h : worked = .ok db) :
    Leads Sys.Step allowed ⟨migrated, Held.empty⟩ ⟨db, Held.empty⟩ := by
  simp only [worked, bind_eq_ok, pure_eq_ok] at h
  obtain ⟨db₀, hwaiting, ⟨db₁, _⟩, h₁, db₂, h₂, ⟨db₃, _⟩, h₃, ⟨db₄, _⟩, h₄, ⟨db₅, _⟩, h₅,
    ⟨db₆, _⟩, h₆, rfl⟩ := h
  have hchoice := @CreditedDay.chooses _ db₀ (congrArg Except.toOption hwaiting)
    (by decide +kernel) selection _ rfl rfl rfl
  have hact {db : Db} {a : Action} (ha : acts a = true)
      (hrecord : ∀ block c seen, a ≠ .observe (.record block c seen)) :
      allowed ⟨db, Held.empty⟩ a :=
    hallowed _ a ha rfl fun _ _ _ heq => absurd heq (hrecord _ _ _)
  have hworking := ((queued_leads hallowed hwaiting).step (hact rfl (by simp))
    (.work (.reserveNext hchoice h₁))).step (hact rfl (by simp)) (.work (.recordBinary h₂))
  have hsent := (hworking.step (hact rfl (by simp)) (.work (.begin h₃))).step
    (hact rfl (by simp)) (.work (.recordResponse h₄))
  exact (hsent.step (hact rfl (by simp)) (.work (.publishAssignment h₅))).step
    (hact rfl (by simp)) (.funds (.acknowledge h₆))

/-- What is held of the second round. -/
def held (db : Db) (snapshot : BlockSnapshot) : Held :=
  { Held.empty with
    covered := [2], readings := [⟨2, Qualifiers.roundCredits db 2, false⟩]
    snapshots := [("block-2", snapshot)] }

theorem rewarded_leads {allowed : Sys → Action → Prop}
    (hallowed : ∀ s a, acts a = true → s.held.readings = [] → allowed s a) {db db' : Db}
    {snapshot : BlockSnapshot} (h : rewarded db = .ok (db', snapshot)) :
    Leads Sys.Step allowed ⟨db, Held.empty⟩ ⟨db', held db' snapshot⟩ := by
  simp only [rewarded, bind_eq_ok, pure_eq_ok] at h
  obtain ⟨db₁, h₁, db₂, h₂, seen, hread, saved, hsaved, db₃, h₃, db₄, h₄, ⟨db₅, _⟩, h₅,
    ⟨db₆, _⟩, h₆, ⟨db₇, _⟩, h₇, db₈, h₈, ⟨db₉, _⟩, h₉, _, hcovered, hend⟩ := h
  obtain ⟨rfl, rfl⟩ := Prod.mk.inj hend
  have hrecorded : Leads Sys.Step allowed ⟨db, Held.empty⟩ ⟨db₂, Held.empty⟩ :=
    .step (.one (hallowed _ _ rfl rfl) (.observe (.record h₁))) (hallowed _ _ rfl rfl)
      (.observe (.record h₂))
  have hseen := hrecorded.step (hallowed _ _ rfl rfl) (.hold (.read hread))
  have hcredited := hseen.step (hallowed _ _ rfl rfl)
    (.observe (.creditBlock (List.mem_cons_self ..) hsaved h₃))
  have hsealed := ((hcredited.step (hallowed _ _ rfl rfl) (.report (.scope h₄))).step
    (hallowed _ _ rfl rfl) (.report (.record h₅))).step (hallowed _ _ rfl rfl)
    (.report (.sealRound h₆))
  have hdeclared := (hsealed.step (hallowed _ _ rfl rfl) (.funds (.declareEarnings h₇))).step
    (hallowed _ _ rfl rfl) (.funds (.recordTransfer h₈))
  have hreceived := hdeclared.step (hallowed _ _ rfl rfl) (.funds (.attributeReceipt h₉))
  have hlooked := hreceived.step (hallowed _ _ rfl rfl) (.hold (.coverage hcovered))
  exact hlooked.step (hallowed _ _ rfl rfl) (.hold (.credits (List.mem_cons_self ..)))

/-- As long as no credits are held, all is in time. -/
theorem timely {s : Sys} {a : Action} (h : s.held.readings = []) : Sys.Timely s a := by
  intro _ _ _ _ _ _ r hr
  rw [h] at hr
  cases hr

theorem worked_reachable {db : Db} (h : worked = .ok db) :
    Sys.Reachable Sys.Timely ⟨db, Held.empty⟩ :=
  ⟨_, Sys.initial_migrated, worked_leads (fun _ _ _ hnone _ => timely hnone) h⟩

/-- A reading stays, perhaps stale. -/
theorem observe_reading {held : Held} {r : CreditReading} (hr : r ∈ held.readings)
    (a : ObservationAction) (db db' : Db) :
    ∃ r' ∈ (held.observe a db db').readings, r'.round = r.round ∧ r'.credits = r.credits := by
  refine ⟨_, List.mem_map_of_mem hr, ?_⟩
  split <;> exact ⟨rfl, rfl⟩

theorem credited_leads {allowed : Sys → Action → Prop}
    (hallowed : ∀ s a, acts a = true → allowed s a) {db db' : Db} {snapshot : BlockSnapshot}
    {held : Held} (h : credited db = .ok (db', snapshot)) :
    ∃ held', Leads Sys.Step allowed ⟨db, held⟩ ⟨db', held'⟩ ∧
      ∀ r ∈ held.readings, ∃ r' ∈ held'.readings, r'.round = r.round ∧ r'.credits = r.credits := by
  simp only [credited, bind_eq_ok, pure_eq_ok] at h
  obtain ⟨db₁, h₁, seen, hread, saved, hsaved, db₂, h₂, hend⟩ := h
  obtain ⟨rfl, rfl⟩ := Prod.mk.inj hend
  have hrecorded : Leads Sys.Step allowed ⟨db, held⟩ ⟨db₁, _⟩ :=
    .one (hallowed _ _ rfl) (.observe (.record h₁))
  have hseen := hrecorded.step (hallowed _ _ rfl) (.hold (.read hread))
  have hcredited := hseen.step (hallowed _ _ rfl)
    (.observe (.creditBlock (List.mem_cons_self ..) hsaved h₂))
  refine ⟨_, hcredited, fun r hr => ?_⟩
  obtain ⟨r₁, hr₁, hround, hcredits⟩ :=
    observe_reading hr (.record (source "block-3") (some late) none) db db₁
  rw [← hround, ← hcredits]
  exact observe_reading hr₁ (.creditBlock "block-3" "pool") db₁ db₂

/-- The day, evaluated: settled early, the second height is missing; settled with the reading
after the late block, it is not missing, and the member's credit is left out. -/
theorem day_spec : ∃ db snapshot, Sys.Reachable Sys.Timely ⟨db, held db snapshot⟩ ∧
    (db.funds.roundEarnings.lookup 2).bind (·.settlement) = none ∧
    (∃ db' out, Settlement.allocate db 2 "seal" (Qualifiers.roundCredits db 2) none
      = .ok (db', out) ∧ out.inputs.missingHeights = [3]) ∧
    ∃ db₂ seen, credited db = .ok (db₂, seen) ∧
      (db₂.funds.roundEarnings.lookup 2).bind (·.settlement) = none ∧
      ∃ db' out, Settlement.allocate db₂ 2 "seal" (Qualifiers.roundCredits db 2) none
        = .ok (db', out) ∧ out.inputs.missingHeights = [] ∧ out.inputs.creditOf "member" = 0 ∧
        Qualifiers.creditOf db₂ 2 "member" = 1 := by
  have hfacts : day.toOption.any (fun d =>
      (d.1.1.funds.roundEarnings.lookup 2).bind (·.settlement) = none ∧
      d.2.1.2.inputs.missingHeights = [3] ∧
      (d.2.2.1.1.funds.roundEarnings.lookup 2).bind (·.settlement) = none ∧
      d.2.2.2.2.inputs.missingHeights = [] ∧ d.2.2.2.2.inputs.creditOf "member" = 0 ∧
      Qualifiers.creditOf d.2.2.1.1 2 "member" = 1) = true := by decide +kernel
  obtain ⟨⟨first, early, second, out⟩, hday, hfacts⟩ := (Option.any_eq_true _ _).mp hfacts
  obtain ⟨hopen, hmissing, hopen₂, hpresent, hlost, hcredit⟩ := of_decide_eq_true hfacts
  have hrun := eq_ok_of_toOption hday
  simp only [day, bind_eq_ok, pure_eq_ok, Prod.mk.injEq] at hrun
  obtain ⟨db, hworked, _, hrewarded, _, hearly, _, hsecond, _, hout, rfl, rfl, rfl, rfl⟩ := hrun
  obtain ⟨s₀, h₀, hday⟩ := worked_reachable hworked
  refine ⟨_, _, ⟨s₀, h₀, hday.trans (rewarded_leads (fun _ _ _ => timely) hrewarded)⟩, hopen,
    ⟨_, _, hearly, hmissing⟩, _, _, hsecond, hopen₂, _, _, hout, hpresent, hlost, hcredit⟩

/-- The member's credit was committed before the locks, the height is not missing, and the
settlement leaves the credit out. -/
theorem late_credit_lost : ∃ s reading db' out, Sys.Reachable Sys.Any s ∧
    reading ∈ s.held.readings ∧ reading.round = 2 ∧
    Settlement.allocate s.db 2 "seal" reading.credits none = .ok (db', out) ∧
    (s.db.funds.roundEarnings.lookup 2).bind (·.settlement) = none ∧
    out.inputs.missingHeights = [] ∧ out.inputs.creditOf "member" = 0 ∧
    Qualifiers.creditOf s.db 2 "member" = 1 ∧ ¬ out.inputs.Exact s.db 2 := by
  obtain ⟨db, snapshot, hreach, -, -, db₂, seen, hcredited, hopen, db', out, hout, hpresent,
    hlost, hcredit⟩ := day_spec
  have hany : Sys.Reachable Sys.Any ⟨db, held db snapshot⟩ :=
    hreach.imp fun _ h => h.imp_right fun h => h.mono fun _ _ _ => trivial
  obtain ⟨held', hlate, hreadings⟩ :=
    @credited_leads Sys.Any (fun _ _ _ => trivial) _ _ _ (held db snapshot) hcredited
  obtain ⟨reading, hmem, hround, hcredits⟩ := hreadings _ (List.mem_cons_self ..)
  obtain ⟨s₀, h₀, hearly⟩ := hany
  refine ⟨_, reading, db', out, ⟨s₀, h₀, hearly.trans hlate⟩, hmem, hround, ?_,
    hopen, hpresent, hlost, hcredit, ?_⟩
  · rw [hcredits]
    exact hout
  · intro hexact
    have hsame := hexact "member"
    rw [hlost, hcredit] at hsame
    exact zero_ne_one hsame

/-- Settled before the late block, the round is settled with all of its credit. -/
theorem settled_credit_early : ∃ s reading db' out, Sys.Reachable Sys.Timely s ∧
    reading ∈ s.held.readings ∧
    Settlement.allocate s.db reading.round "seal" reading.credits none = .ok (db', out) ∧
    out.inputs.missingHeights = [3] ∧ out.inputs.Exact s.db 2 ∧ out.inputs.Covers s.db 2 := by
  obtain ⟨db, snapshot, hreach, hopen, ⟨db', out, hout, hmissing⟩, -⟩ := day_spec
  have hany : Sys.Reachable Sys.Any ⟨db, held db snapshot⟩ :=
    hreach.imp fun _ h => h.imp_right fun h => h.mono fun _ _ _ => trivial
  have hmem : (⟨2, Qualifiers.roundCredits db 2, false⟩ : CreditReading)
      ∈ (held db snapshot).readings := List.mem_cons_self ..
  obtain ⟨hexact, hcovers⟩ := (settled_credit hany hmem hout hopen).2.2 hreach
  exact ⟨_, _, db', out, hreach, hmem, hout, hmissing, hexact, hcovers⟩

end LateDay

end TigPool
