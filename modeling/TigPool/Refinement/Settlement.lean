/-
# `TigPool.Refinement.Settlement` — collateral, pots and allocations

What the operations of `settlement.py` do to the funds.
-/
import TigPool.Refinement.Openings
import TigPool.Rewards

namespace TigPool

open Basis

variable {db db' : Db}

namespace Settlement

/-! ## Collateral -/

theorem collateralDecision_spec {row : Reservation} {related : List SealedReport}
    {outcome : CollateralOutcome} (h : collateralDecision row related = .ok outcome) :
    (outcome = .forfeited ↔ row.handedOverAt ≠ none ∧
        (row.activeAtHeight = none ∨ related.any (·.result = some .nonreproducible) = true)) := by
  unfold collateralDecision at h
  split at h
  next hnot =>
    simp only [bind_eq_ok, require_eq_ok, exists_const, pure_eq_ok] at h
    obtain ⟨-, rfl⟩ := h
    simp [hnot]
  next hhanded =>
    split at h
    next hlost =>
      obtain rfl := Except.ok.inj h
      simp only [true_iff]
      exact ⟨hhanded, hlost⟩
    next hkept =>
      obtain rfl := Except.ok.inj h
      simp only [reduceCtorEq, false_iff, not_and]
      exact fun _ => hkept

/-- The last writes of a finalization. -/
theorem finalized_moves (hf : db.funds.Lawful) {identity sealId : Uuid} {row : Reservation}
    (hrow : db.funds.reservations.lookup identity = some row)
    (hstate : row.state = .active ∨ row.state = .verificationFailed ∨ row.state = .expired)
    (hopen : row.finalization = none ∧ row.collateralOutcome = none) {outcome : CollateralOutcome}
    {destination : AccountId}
    (hdestination : outcome = .returned ∧ destination = available row.memberId ∨
      outcome = .forfeited ∧ destination = pot row.creationRound)
    {l l' : Ledger} (hpath : Funds.Path Change.Quiet db.funds { db.funds with ledger := l })
    {kind : String} {details : Json}
    (hpost : (if row.amount ≠ 0 then l.post (.finalize identity) kind
        [(held identity, -row.amount), (destination, row.amount)] details none else .ok l) = .ok l') :
    db.Moves (Only [.finalized identity destination]) ((db.withLedger l').putReservation identity
      { row with
        collateralOutcome := some outcome, finalization := some ⟨outcome, row.amount, sealId⟩ }) := by
  have hkey : EventKey.finalize identity ∉ l.journals := by
    refine (hpath.lawful hf).explained.fresh ?_
    rintro m ⟨r, c, hr, hc, -⟩
    obtain rfl := Option.some.inj (hrow.symm.trans hr)
    rw [hopen.1] at hc
    cases hc
  have hplace : destination.place = (.TIG, .custody) := by
    rcases hdestination with ⟨-, rfl⟩ | ⟨-, rfl⟩ <;> rfl
  have hrecorded : l.Recorded (.finalize identity) (resolveMovements identity row destination) l' :=
    .of_post_ite hpost hkey (resolveMovements_balanced hplace) fun hzero a => by
      simp [resolveMovements, not_ne_iff.mp hzero]
  have hstep (c : CollateralFinalization) (hamount : c.amount = row.amount)
      (houtcome : c.outcome = outcome) : Funds.Step { db.funds with ledger := l }
        (.finalized identity destination) { db.funds with
          ledger := l'
          reservations := AList.insert identity { row with
            collateralOutcome := some c.outcome, finalization := some c } db.funds.reservations } :=
    .finalized (f := { db.funds with ledger := l }) hrow hstate hopen.2 hamount
      (houtcome ▸ hdestination) hrecorded
  exact .of_step hpath.only .change (hstep ⟨outcome, row.amount, sealId⟩ rfl rfl)

theorem finalizeCollateral_moves (hf : db.funds.Lawful) {identity sealId : Uuid}
    {out : Option CollateralFinalization}
    (h : finalizeCollateral db identity sealId = .ok (db', out)) :
    ∃ a, db.Moves (Only [.finalized identity a]) db' := by
  simp only [finalizeCollateral, bind_eq_ok, fetch_eq_ok] at h
  obtain ⟨row, hrow, h⟩ := h
  split at h
  next =>
    obtain ⟨rfl, -⟩ := Prod.mk.inj (Except.ok.inj h)
    exact ⟨.unattributed, .refl _⟩
  next hsome =>
    have hopen : row.finalization = none ∧ row.collateralOutcome = none := by
      simpa [not_or] using hsome
    simp only [bind_eq_ok, require_eq_ok, exists_const] at h
    obtain ⟨report, -, ⟨hstate, -⟩, _, -, outcome, -, h⟩ := h
    cases outcome with
    | returned =>
        simp only [if_pos, bind_eq_ok, ite_bind_eq_ok, pure_eq_ok, Prod.mk.injEq] at h
        obtain ⟨⟨l, destination⟩, hledger, l', hpost, db₁, hevent, rfl, -⟩ := h
        obtain ⟨rfl, rfl⟩ := Prod.mk.inj (Except.ok.inj hledger)
        exact ⟨_, (finalized_moves hf hrow hstate hopen (.inl ⟨rfl, rfl⟩) .refl hpost).trans
          (event_moves_of_ne hevent (by decide))⟩
    | forfeited =>
        simp only [reduceCtorEq, if_false, bind_eq_ok, ite_bind_eq_ok, pure_eq_ok,
          Prod.mk.injEq] at h
        obtain ⟨l, haccount, _, rfl, l', hpost, db₁, hevent, rfl, -⟩ := h
        exact ⟨_, (finalized_moves hf hrow hstate hopen (.inr ⟨rfl, rfl⟩)
          (Ledger.account_path haccount rfl) hpost).trans (event_moves_of_ne hevent (by decide))⟩

/-! ## Funding a pot -/

theorem declareEarnings_moves {round expectedReceivedNet withheldOperatingCost : ℤ}
    {blockId : String} {evidence : Json} {out : RoundEarnings}
    (h : declareEarnings db round expectedReceivedNet withheldOperatingCost blockId evidence
      = .ok (db', out)) :
    db.Moves (Only [.declared round.toNat]) db' := by
  simp only [declareEarnings, bind_eq_ok, require_eq_ok, exists_const, units_eq_ok] at h
  obtain ⟨round, ⟨rfl, -⟩, net, -, cost, -, -, _, -, _, -, h⟩ := h
  split at h
  next =>
    simp only [bind_eq_ok, require_eq_ok, exists_const, pure_eq_ok, Prod.mk.injEq] at h
    obtain ⟨-, rfl, -⟩ := h
    exact .refl _
  next hnone =>
    simp only [bind_eq_ok, pure_eq_ok, Prod.mk.injEq] at h
    obtain ⟨l, haccount, rfl, -⟩ := h
    have hpath : Funds.Path Change.Quiet db.funds { db.funds with ledger := l } :=
      Ledger.account_path haccount rfl
    exact .of_step hpath.only .change
      (.declared (f := { db.funds with ledger := l }) hnone rfl rfl (Ledger.account_mem haccount))

theorem sum_filterMap {α β : Type} {l : List α} {f : α → Option β} {g : β → ℕ} :
    ((l.filterMap f).map g).sum = (l.map fun a => (f a).elim 0 g).sum := by
  induction l with
  | nil => rfl
  | cons a l ih =>
      rw [List.filterMap_cons]
      cases h : f a with
      | none => simp [h, ih]
      | some b => simp [h, ih]

theorem receiptsOf_sum {round : ℕ} :
    ((receiptsOf db round).map (·.2)).sum = db.funds.receivedBy round := by
  rw [receiptsOf, sum_filterMap, Funds.receivedBy, Table.total]
  congr 1
  refine List.map_congr_left fun e _ => ?_
  cases e.2.roundReceipt with
  | none => rfl
  | some r =>
      simp only [Option.bind_some, Option.elim_some]
      split <;> rfl

theorem forfeituresOf_sum {round : ℕ} :
    ((forfeituresOf db round).map (·.2)).sum = db.funds.forfeitedTo round := by
  rw [forfeituresOf, sum_filterMap, Funds.forfeitedTo, Table.total]
  congr 1
  refine List.map_congr_left fun e _ => ?_
  cases e.2.finalization with
  | none => rfl
  | some c =>
      simp only [Option.bind_some, Option.elim_some]
      split <;> rfl

theorem attributeReceipt_moves (hf : db.funds.Lawful) {round : ℤ} {transfer : ConfirmedTransfer}
    {evidence : Json} {out : RoundReceipt}
    (h : attributeReceipt db round transfer evidence = .ok (db', out)) :
    db.Moves (Only [.rewarded transfer.eventId round.toNat]) db' := by
  simp only [attributeReceipt, bind_eq_ok, require_eq_ok, exists_const, units_eq_ok] at h
  obtain ⟨round, ⟨rfl, -⟩, _, -, -, hin, db₁, hbind, h⟩ := h
  obtain ⟨-, hbound⟩ := Custody.bind_spec hbind
  refine hbound.only.trans ?_
  split at h
  next =>
    simp only [bind_eq_ok, require_eq_ok, exists_const, pure_eq_ok, Prod.mk.injEq] at h
    obtain ⟨-, db₂, hsave, rfl, -⟩ := h
    obtain ⟨_, _, -, -, -, -, -, hmoves⟩ := Deposits.saveTransfer_spec hsave
    exact hmoves.only
  next =>
    simp only [bind_eq_ok, require_eq_ok, exists_const, fetch_eq_ok, pure_eq_ok,
      Prod.mk.injEq] at h
    obtain ⟨earnings, hearnings, hopen, row, hrow, db₂, hsave, hfree, hsum, db₃, hattribute, row',
      hrow', rfl, -⟩ := h
    obtain ⟨transfers, t, hdb₂, ht, hfacts, -, hsame, hmoves⟩ := Deposits.saveTransfer_spec hsave
    refine hmoves.only.trans ?_
    have hf₂ := hmoves.lawful (hbound.lawful hf)
    obtain rfl := hsame row hrow
    have ht₂ : db₂.funds.transfers.lookup transfer.eventId = some t := by
      rw [hdb₂]
      exact ht
    obtain ⟨t', ht', ⟨a, ha, -⟩ | ⟨-, l, a, ha, hrecorded, rfl⟩⟩ :=
      Deposits.attributeTransfer_spec hf₂ hattribute rfl
    · obtain rfl := Option.some.inj (ht₂.symm.trans ht')
      rw [hfree] at ha
      cases ha
    · obtain rfl := Option.some.inj (ht₂.symm.trans ht')
      obtain rfl := Option.some.inj ((AList.lookup_insert _).symm.trans hrow')
      have hamount : t.amount = transfer.amount := hfacts.2.2.2.2.2
      have hearnings₂ : db₂.funds.roundEarnings.lookup round = some earnings := by
        rw [hdb₂]
        exact hearnings
      have hroom : db₂.funds.receivedBy round + t.amount ≤ earnings.expectedReceivedNet := by
        rw [← receiptsOf_sum, hamount]
        exact hsum
      have hincoming : t.incoming db₂.funds.wallet = true :=
        Deposits.incoming_of_facts hfacts (by rw [hdb₂]) hin
      rw [← hamount] at hrecorded
      have hstep (r : RoundReceipt) (hr : r.amount = t.amount) (hround : r.round = round) :
          Funds.Step db₂.funds (.rewarded transfer.eventId round) { db₂.funds with
            ledger := l
            transfers := AList.insert transfer.eventId
              { t with attribution := some a, roundReceipt := some r } db₂.funds.transfers } := by
        subst hround
        exact .rewarded ht₂ hincoming hfree ha hr hearnings₂ hopen hroom hrecorded
      have hmoves₂ := Db.Moves.of_step (L := Only [.rewarded transfer.eventId round]) .refl .change
        (hstep ⟨round, transfer.amount, evidence⟩ hamount.symm rfl)
      simpa [Db.putTransfer, Db.withLedger, AList.insert_insert] using hmoves₂

/-! ## Settlement -/

/-- What has been checked about the inputs of a settlement that is not on record yet. -/
theorem prepare_spec {round : ℕ} {sealId : Uuid} {credits : Table String ℚ}
    {inputs : SettlementInputs} {amount operator : ℤ} {allocations : Table String ℤ}
    (h : prepare db round sealId credits = .ok (inputs, amount, operator, allocations)) :
    ∃ earnings account, db.funds.roundEarnings.lookup round = some earnings ∧
      (∀ {k r}, db.funds.reservations.lookup k = some r → r.creationRound = round →
        r.collateralOutcome ≠ none) ∧
      db.funds.receivedBy round = earnings.expectedReceivedNet ∧
      db.funds.reimbursedTo round = earnings.withheldOperatingCost ∧
      amount = (db.funds.receivedBy round + db.funds.reimbursedTo round
        + db.funds.forfeitedTo round : ℕ) ∧
      db.funds.ledger.accounts.lookup (pot round) = some account ∧ account.balance = amount ∧
      allocateRewards amount credits = .ok (operator, allocations) := by
  simp only [prepare, bind_eq_ok, require_eq_ok, exists_const, fetch_eq_ok, pure_eq_ok,
    Prod.mk.injEq] at h
  obtain ⟨_, -, coverage, -, -, earnings, hearnings, _, -, hresolved, hreceived, hreimbursed, account,
    haccount, hbalance, ⟨operator, allocations⟩, hallocate, -, rfl, rfl, rfl, rfl⟩ := h
  have hreimbursedTo : db.funds.reimbursedTo round
      = earnings.reimbursement.elim 0 (·.amount) := by
    rw [Funds.reimbursedTo, hearnings, Option.elim_some]
  refine ⟨earnings, account, hearnings, ?_, receiptsOf_sum ▸ hreceived,
    hreimbursedTo.trans hreimbursed, ?_, haccount, hbalance, hallocate⟩
  · intro k r hr hround hnone
    have := Table.any_eq_false.mp hresolved k r hr
    simp [hround, hnone] at this
  · rw [receiptsOf_sum, forfeituresOf_sum, hreimbursedTo]

theorem reimburseOperatingCost_moves (hf : db.funds.Lawful) {round : ℕ} {out : RoundReimbursement}
    (h : reimburseOperatingCost db round = .ok (db', out)) :
    db.Moves (Only [.reimbursed round]) db' := by
  simp only [reimburseOperatingCost, bind_eq_ok, fetch_eq_ok] at h
  obtain ⟨earnings, hearnings, h⟩ := h
  split at h
  next =>
    obtain ⟨rfl, -⟩ := Prod.mk.inj (Except.ok.inj h)
    exact .refl _
  next hnone =>
    simp only [bind_eq_ok, require_eq_ok, exists_const, ite_bind_eq_ok, pure_eq_ok,
      Prod.mk.injEq] at h
    obtain ⟨hopen, l, hpost, rfl, -⟩ := h
    have hkey : EventKey.reimburse round ∉ db.funds.ledger.journals := by
      refine hf.explained.fresh ?_
      rintro m ⟨e, r, he, hr, -⟩
      obtain rfl := Option.some.inj (hearnings.symm.trans he)
      rw [hnone] at hr
      cases hr
    exact .of_step .refl .change (.reimbursed hearnings hnone hopen
      (.of_post_ite hpost hkey reimburseMovements_balanced fun hzero a => by
        simp [reimburseMovements, not_ne_iff.mp hzero]))

/-- A reward allocation shares out the pot, and takes nothing from anybody. -/
theorem shares_spec {amount operator : ℤ} {credits : Table String ℚ} {allocations : Table String ℤ}
    (hnonneg : 0 ≤ amount) (h : allocateRewards amount credits = .ok (operator, allocations))
    (inputs : SettlementInputs) :
    let s : RoundSettlement := ⟨rule, inputs, amount, operator, sorted allocations⟩
    s.pot = (s.shares.map (·.2)).sum ∧ ∀ share ∈ s.shares, 0 ≤ share.2 := by
  intro s
  have hvalid : ValidCredits credits := by
    simp only [allocateRewards, bind_eq_ok, require_eq_ok, exists_const] at h
    obtain ⟨-, -, hnames, hcredits, -⟩ := h
    exact validCredits_iff.mpr ⟨hnames, hcredits⟩
  rw [allocateRewards_eq hnonneg hvalid] at h
  obtain ⟨rfl, rfl⟩ := Prod.mk.inj (Except.ok.inj h)
  have hperm := List.perm_insertionSort (fun a b : String × ℤ => a.1 ≤ b.1)
    ((credits.mapVals fun key _ => rewardShare amount credits key).entries.map fun e => (e.1, e.2))
  have hconserves := (@allocation_of_valid amount credits).conserves
  constructor
  · have hsum : ((sorted (credits.mapVals fun key _ => rewardShare amount credits key)).map
        (·.2)).sum = (credits.mapVals fun key _ => rewardShare amount credits key).total
          fun _ share => share := by
      rw [sorted, (hperm.map _).sum_eq, List.map_map]
      rfl
    simp only [s, RoundSettlement.shares, List.map_cons, List.map_map, List.sum_cons]
    rw [← hsum] at hconserves
    exact hconserves.symm
  · intro share hshare
    rcases List.mem_cons.mp hshare with rfl | hmem
    · exact rewardFee_nonneg hnonneg
    · obtain ⟨a, ha, rfl⟩ := List.mem_map.mp hmem
      obtain ⟨e, he, rfl⟩ := List.mem_map.mp ((hperm.mem_iff).mp ha)
      obtain ⟨hk, hs⟩ := lookup_shares (Table.mem_entries_iff.mp he)
      obtain ⟨credit, hcredit⟩ := Option.isSome_iff_exists.mp (AList.lookup_isSome.mpr hk)
      show 0 ≤ e.2
      rw [hs]
      exact rewardShare_nonneg hnonneg hvalid hcredit

theorem settleMovements_balanced {round : ℕ} {s : RoundSettlement}
    (hsum : s.pot = (s.shares.map (·.2)).sum) :
    Balanced AccountId.place (settleMovements round s) := by
  refine .within (.TIG, .custody) ?_ ?_
  · intro p hp
    rcases List.mem_cons.mp hp with rfl | hp
    · rfl
    · rcases List.mem_cons.mp hp with rfl | hp
      · rfl
      · obtain ⟨a, -, rfl⟩ := List.mem_map.mp hp
        rfl
  · rw [settleMovements, List.map_cons, List.sum_cons, ← hsum, neg_add_cancel]

theorem settleMovements_zero {round : ℕ} {s : RoundSettlement} (hpot : s.pot = 0)
    (hsum : s.pot = (s.shares.map (·.2)).sum) (hnonneg : ∀ share ∈ s.shares, 0 ≤ share.2)
    (a : AccountId) : moved (settleMovements round s) a = 0 := by
  have hzero : ∀ share ∈ s.shares, share.2 = 0 := by
    intro share hshare
    have hle : share.2 ≤ (s.shares.map (·.2)).sum :=
      List.single_le_sum (List.forall_mem_map.mpr hnonneg) _ (List.mem_map_of_mem hshare)
    exact le_antisymm (by rwa [← hsum, hpot] at hle) (hnonneg share hshare)
  rw [settleMovements, moved_cons, hpot]
  have hshares : moved s.shares a = 0 := by
    rw [moved, List.map_congr_left (g := fun _ => (0 : ℤ)) fun p hp => by simp [hzero p hp]]
    simp
  simp [hshares]

theorem allocate_moves (hf : db.funds.Lawful) {round : ℕ} {sealId : Uuid} {credits : Table String ℚ}
    {expected : Option SettlementInputs} {out : RoundSettlement}
    (h : allocate db round sealId credits expected = .ok (db', out)) :
    db.Moves (Only [.settled round (out.memberAllocations.map (·.1))]) db' := by
  simp only [allocate, bind_eq_ok, require_eq_ok, exists_const] at h
  obtain ⟨-, h⟩ := h
  split at h
  next =>
    simp only [bind_eq_ok, pure_eq_ok, Prod.mk.injEq] at h
    obtain ⟨_, -, rfl, -⟩ := h
    exact .refl _
  next hnone =>
    simp only [bind_eq_ok, require_eq_ok, exists_const, fetch_eq_ok, ite_bind_eq_ok, pure_eq_ok,
      Prod.mk.injEq] at h
    obtain ⟨⟨inputs, amount, operator, allocations⟩, hprepare, -, earnings, hearnings, l, hpost, rfl,
      rfl⟩ := h
    obtain ⟨earnings', account, hearnings', hresolved, hreceived, hreimbursed, hamount, haccount,
      hbalance, hallocate⟩ := prepare_spec hprepare
    obtain rfl := Option.some.inj (hearnings.symm.trans hearnings')
    have hopen : earnings.settlement = none := by
      rw [hearnings] at hnone
      exact hnone
    have hnonneg : 0 ≤ amount := by
      rw [hamount]
      exact Int.natCast_nonneg _
    obtain ⟨hsum, hshares⟩ := shares_spec hnonneg hallocate inputs
    have hkey : EventKey.settle round ∉ db.funds.ledger.journals := by
      refine hf.explained.fresh ?_
      rintro m ⟨e, s, he, hs, -⟩
      obtain rfl := Option.some.inj (hearnings.symm.trans he)
      rw [hopen] at hs
      cases hs
    refine .of_step .refl .change (.settled hearnings hopen hresolved hamount hsum hshares hreceived
      hreimbursed (.of_post_ite hpost hkey (settleMovements_balanced hsum) ?_))
    intro hzero
    exact settleMovements_zero (not_ne_iff.mp hzero) hsum hshares

end Settlement

end TigPool
