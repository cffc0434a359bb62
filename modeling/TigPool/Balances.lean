/-
# `TigPool.Balances` — the ledger agrees with the books

Whatever happens to the funds, other than an operator's correction, each tracked
account holds what the rows say it should.  A step posts exactly the difference
between the positions of the row it writes and of the row it replaces; that is
the whole argument, once for each kind of step.
-/
import TigPool.Journals

namespace TigPool

open Basis

namespace Funds

variable {f f' : Funds} {c : Change}

theorem booked_eq (f : Funds) (a : AccountId) : f.booked a =
    f.reservations.total (fun id r => moved (r.position id) a) +
      f.transfers.total (fun e t => moved (t.position (f.ledger.received e)) a) +
      f.roundEarnings.total (fun n e => moved (e.position n) a) +
      f.withdrawals.total (fun id w => moved (w.position id) a) +
      f.withdrawalAttempts.total (fun id w => moved (w.position id) a) +
      f.protocolTopups.total (fun id t => moved (t.position id) a) +
      (moved (f.openingBaseline.elim [] (·.position)) a +
        (f.protocolOpeningCredits.total (fun _ c => moved (openingPosition c.amount) a) +
          f.mainnetOpeningCredits.total fun _ c => moved (openingPosition c.amount) a)) := rfl

/-- Only a receipt makes an event received. -/
theorem received_of_recorded {ledger ledger' : Ledger} {key : EventKey} {m : Movements AccountId}
    (h : ledger.Recorded key m ledger') (hkey : ∀ e, key ≠ .receipt e) :
    ledger'.received = ledger.received := by
  funext e
  rcases h with ⟨rfl, -⟩ | ⟨kind, m', details, -, -, -, rfl⟩
  · rfl
  · rw [Ledger.received, Ledger.posted, AList.lookup_insert_ne (hkey e).symm]
    rfl

/-- A step that moves on the ledger what it moves in the books. -/
theorem Reconciled.of_recorded {key : EventKey} {m : Movements AccountId} {ledger : Ledger}
    (hf : f.Reconciled) (hr : f.ledger.Recorded key m ledger) (hledger : f'.ledger = ledger)
    (hkey : ∀ e, key ≠ .receipt e)
    (hbooks : ∀ a, Tracked a → ledger.received = f.ledger.received →
      f'.booked a = f.booked a + moved m a) : f'.Reconciled := fun a ha => by
  rw [hledger, hr.balance, hf a ha, hbooks a ha (received_of_recorded hr hkey)]

/-- A step that moves nothing, on the ledger or in the books. -/
theorem Reconciled.of_still (hf : f.Reconciled)
    (hledger : ∀ a, f'.ledger.balance a = f.ledger.balance a)
    (hbooks : ∀ a, f'.booked a = f.booked a) : f'.Reconciled :=
  fun a ha => by rw [hledger, hf a ha, hbooks a]

/-- A receipt, in the books. -/
theorem booked_received {e : EventId} {t : Transfer} {ledger : Ledger} {a : AccountId}
    (ht : f.transfers.lookup e = some t)
    (hr : f.ledger.Recorded (.receipt e) (receiptMovements t.amount) ledger) :
    ({ f with ledger := ledger } : Funds).booked a
      = f.booked a + moved (receiptMovements t.amount) a := by
  rcases hr with ⟨rfl, hzero⟩ | ⟨kind, m', details, -, hpost, -, rfl⟩
  · rw [hzero, add_zero]
  · have hother : ∀ e' t', e' ≠ e → f.transfers.lookup e' = some t' →
        moved (t'.position ((f.ledger.posted (.receipt e)
          (Ledger.journalOf kind m' details none)).received e')) a
          = moved (t'.position (f.ledger.received e')) a := by
      intro e' t' hne _
      have hkey : EventKey.receipt e' ≠ .receipt e := fun h => hne (EventKey.receipt.inj h)
      rw [Ledger.received, Ledger.posted, AList.lookup_insert_ne hkey]
      rfl
    have hold : f.ledger.received e = false := by rw [Ledger.received, hpost.fresh]; rfl
    have hnew : (f.ledger.posted (.receipt e)
        (Ledger.journalOf kind m' details none)).received e = true := by
      rw [Ledger.received, Ledger.posted, AList.lookup_insert]
      rfl
    rw [booked_eq, booked_eq, Table.total_change ht hother]
    simp only [Transfer.position, hold, hnew, if_true, Bool.false_eq_true, if_false, moved_append,
      moved_nil]
    ring

theorem Reservation.position_moved {id : Uuid} {r : Reservation} {a : AccountId} :
    moved (r.position id) a =
      -(if r.collateralOutcome = some .returned then (0 : ℤ) else r.amount)
          * mark (available r.memberId) a
        + (if r.collateralOutcome = none then (r.amount : ℤ) else 0) * mark (held id) a
        + (if r.collateralOutcome = some .forfeited then (r.amount : ℤ) else 0)
          * mark (pot r.creationRound) a
        - (r.feeActual.getD r.feeLimit : ℕ) * mark operatorFees a
        + (if r.feeActual = none then (r.feeLimit : ℤ) else 0) * mark (committedFee id) a
        + (r.feeActual.getD 0 : ℕ) * mark (.external .protocol .TIG) a := by
  simp only [Reservation.position, Reservation.collateralPosition, Reservation.feePosition,
    moved_append, moved_cons_mark, moved_nil]
  split_ifs <;> push_cast <;> ring

theorem source_of_eq {w w' : Withdrawal} (h : w'.memberId = w.memberId) :
    Withdrawals.source w' = Withdrawals.source w := by
  rw [Withdrawals.source, Withdrawals.source, h]

/-- Away from the operator's gas money. -/
theorem Tracked.mark {a : AccountId} (ha : Tracked a) :
    mark (.operator .custody .NATIVE) a = 0 ∧ mark (.external .custody .NATIVE) a = 0 :=
  ⟨mark_of_ne ha.1.symm, mark_of_ne ha.2.symm⟩

/-- An event that is not on record has not been received. -/
theorem Explained.not_received (he : f.Explained) {e : EventId} (h : f.transfers.lookup e = none) :
    f.ledger.received e = false := by
  rw [Ledger.received, Option.isSome_eq_false_iff, Option.isNone_iff_eq_none, AList.lookup_eq_none]
  refine he.fresh ?_
  rintro m ⟨t, ht, -⟩
  rw [h] at ht
  cases ht

theorem Reconciled.step (hl : f.LawfulRows) (he : f.Explained) (hf : f.Reconciled)
    (h : Step f c f') (hc : c ≠ .corrected) : f'.Reconciled := by
  cases h with
  | opened hnone => exact hf.of_still (fun _ => Ledger.balance_opened hnone) fun _ => rfl
  | corrected => exact absurd rfl hc
  | nativeFunded hkey _ hr =>
      refine hf.of_recorded hr rfl (by rintro e rfl; cases hkey) fun a ha hrec => ?_
      simp only [nativeMovements, moved_cons_mark, moved_nil, ha.mark, mul_zero, add_zero,
        booked_eq, hrec]
  | custodyBound => exact hf
  | fundingRecorded => exact hf
  | batchRecorded => exact hf
  | memberRegistered => exact hf
  | walletSet => exact hf
  | multiplierSet => exact hf
  | transactionSaved => exact hf
  | transferSaved hnone _ ha =>
      refine hf.of_still (fun _ => rfl) fun a => ?_
      simp [booked_eq, Table.total_insert_fresh hnone, Transfer.position, ha,
        he.not_received hnone]
  | received ht _ hr => exact fun a ha => by rw [hr.balance, hf a ha, booked_received ht hr]
  | @attributed _ t attribution _ ht hin ha _ hr =>
      refine hf.of_recorded hr rfl (by simp) fun a _ hrec => ?_
      simp only [booked_eq, hrec, Table.total_insert_of_lookup ht, Transfer.position, ha,
        Option.elim_none, Option.elim_some, moved_append, moved_nil]
      ring
  | @rewarded _ t attribution receipt _ _ ht hin ha hdest _ _ _ _ hr =>
      refine hf.of_recorded hr rfl (by simp) fun a _ hrec => ?_
      simp only [booked_eq, hrec, Table.total_insert_of_lookup ht, Transfer.position, ha, hdest,
        Option.elim_none, Option.elim_some, moved_append, moved_nil]
      ring
  | reserved hnone hfresh _ _ _ _ hr =>
      refine hf.of_recorded hr rfl (by simp) fun a _ hrec => ?_
      simp only [booked_eq, hrec, Table.total_insert_fresh hnone, Reservation.position_moved,
        hfresh.outcome, hfresh.feeActual, reserveMovements, moved_cons_mark, moved_nil]
      simp
      ring
  | progressed hrow hp =>
      refine hf.of_still (fun _ => rfl) fun a => ?_
      have hposition : ∀ {r r' : Reservation} {id}, r.Progress r' →
          moved (r'.position id) a = moved (r.position id) a := fun hp => by cases hp <;> rfl
      simp only [booked_eq, Table.total_insert_of_lookup hrow, hposition hp]
      ring
  | accepted hrow hs _ _ hr =>
      have hshape := (hl.reservation hrow).shape.of_unaccepted (Or.inr hs)
      refine hf.of_recorded hr rfl (by simp) fun a _ hrec => ?_
      simp only [booked_eq, hrec, Table.total_insert_of_lookup hrow, Reservation.position_moved,
        hshape, feeMovements, moved_cons_mark, moved_nil]
      simp
      ring
  | @unstarted id _ _ _ ledger _ hrow hs _ hr hr' =>
      have hshape := (hl.reservation hrow).shape.of_unaccepted (by
        rcases hs with hs | hs
        · exact Or.inr hs.1
        · exact Or.inl hs.1)
      have hrec := (received_of_recorded hr' (by simp)).trans (received_of_recorded hr (by simp))
      intro a ha
      rw [show Funds.ledger _ = _ from rfl, hr'.balance, hr.balance, hf a ha]
      simp only [booked_eq, hrec, Table.total_insert_of_lookup hrow, Reservation.position_moved,
        hshape, feeMovements, resolveMovements, moved_cons_mark, moved_nil]
      simp
      ring
  | unhanded hrow hs _ hr =>
      have hshape := (hl.reservation hrow).shape.of_accepted hs
      refine hf.of_recorded hr rfl (by simp) fun a _ hrec => ?_
      simp only [booked_eq, hrec, Table.total_insert_of_lookup hrow, Reservation.position_moved,
        hshape, resolveMovements, moved_cons_mark, moved_nil]
      simp
      ring
  | finalized hrow _ hnone _ hdest hr =>
      refine hf.of_recorded hr rfl (by simp) fun a _ hrec => ?_
      simp only [booked_eq, hrec, Table.total_insert_of_lookup hrow, Reservation.position_moved,
        hnone, resolveMovements, moved_cons_mark, moved_nil]
      rcases hdest with ⟨ho, rfl⟩ | ⟨ho, rfl⟩ <;> simp [ho] <;> ring
  | declared hnone hreimb hsettle =>
      refine hf.of_still (fun _ => rfl) fun a => ?_
      simp [booked_eq, Table.total_insert_fresh hnone, RoundEarnings.position, hreimb, hsettle]
  | reimbursed hrow hnone _ hr =>
      refine hf.of_recorded hr rfl (by simp) fun a _ hrec => ?_
      simp only [booked_eq, hrec, Table.total_insert_of_lookup hrow, RoundEarnings.position, hnone,
        reimburseMovements, moved_append, moved_cons_mark, moved_nil, Option.elim_none,
        Option.elim_some]
      ring
  | settled hrow hnone _ _ _ _ _ _ hr =>
      refine hf.of_recorded hr rfl (by simp) fun a _ hrec => ?_
      simp only [booked_eq, hrec, Table.total_insert_of_lookup hrow, RoundEarnings.position, hnone,
        settleMovements, moved_append, moved_nil, Option.elim_none, Option.elim_some]
      ring
  | requested hnone hs _ _ _ _ _ _ hr =>
      refine hf.of_recorded hr rfl (by simp) fun a _ hrec => ?_
      simp only [booked_eq, hrec, Table.total_insert_fresh hnone, Withdrawal.position, hs,
        requestMovements, WithdrawalState.isPending, moved_cons_mark, moved_nil]
      simp
      ring
  | @approved _ w review hw hs =>
      refine hf.of_still (fun _ => rfl) fun a => ?_
      have hsource : Withdrawals.source { w with review := some review, state := .approved }
          = Withdrawals.source w := source_of_eq rfl
      simp [booked_eq, Table.total_insert_of_lookup hw, Withdrawal.position, hs, hsource,
        WithdrawalState.isPending]
  | @released _ w state _ hw hs hstate hr =>
      refine hf.of_recorded hr rfl (by simp) fun a _ hrec => ?_
      have hsource : Withdrawals.source { w with state } = Withdrawals.source w := source_of_eq rfl
      simp only [booked_eq, hrec, Table.total_insert_of_lookup hw, Withdrawal.position, hsource,
        releaseMovements, moved_cons_mark, moved_nil]
      rcases hs with hs | hs <;> rcases hstate with rfl | rfl <;>
        simp [hs, WithdrawalState.isPending] <;> ring
  | @begun id aid w x s review _ hw hs _ _ hnone _ _ _ _ hfresh _ hr =>
      refine hf.of_recorded hr rfl (by simp) fun a ha hrec => ?_
      have hsource : Withdrawals.source { w with state := .uncertain } = Withdrawals.source w :=
        source_of_eq rfl
      simp only [booked_eq, hrec, Table.total_insert_of_lookup hw, Table.total_insert_fresh hfresh,
        Withdrawal.position, WithdrawalAttempt.position, hsource, hs, hnone, gasMovements,
        WithdrawalState.isPending, moved_cons_mark, moved_nil, ha.mark]
      simp
      ring
  | @unpaid id aid w x s p authorization result _ hx hnone _ hw hs _ _ _ hresult hr =>
      refine hf.of_recorded hr rfl (by simp) fun a ha hrec => ?_
      have hsource : Withdrawals.source { w with state := .approved } = Withdrawals.source w :=
        source_of_eq rfl
      simp only [booked_eq, hrec, Table.total_insert_of_lookup hw, Table.total_insert_of_lookup hx,
        Withdrawal.position, WithdrawalAttempt.position, hsource, hs, hnone, reconcileMovements,
        WithdrawalState.isPending, hresult, moved_cons_mark, moved_nil, ha.mark]
      simp
      ring
  | @paid id aid w x s p authorization e t tx result members _ hx hnone _ hw hs _ _ _ _ _ _ _
      _ _ _ _ _ hr =>
      refine hf.of_recorded hr rfl (by simp) fun a ha hrec => ?_
      have hsource : Withdrawals.source { w with state := .paid, paidEvent := some e }
          = Withdrawals.source w := source_of_eq rfl
      simp only [booked_eq, hrec, Table.total_insert_of_lookup hw, Table.total_insert_of_lookup hx,
        Withdrawal.position, WithdrawalAttempt.position, hsource, hs, hnone, reconcileMovements,
        WithdrawalState.isPending, moved_cons_mark, moved_nil, ha.mark]
      simp
      ring
  | topupBegun hnone hs hcredit _ hr =>
      refine hf.of_recorded hr rfl (by simp) fun a ha hrec => ?_
      simp only [booked_eq, hrec, Table.total_insert_fresh hnone, ProtocolTopup.position, hs,
        hcredit, topupMovements, TopupState.committed, TopupState.sent, moved_cons_mark, moved_nil,
        ha.mark]
      simp
      ring
  | topupReconciled ht hs _ _ hstate hr =>
      have hcredit := (hl.topup ht).credit
      simp only [hs, reduceCtorEq, iff_false, Bool.not_eq_true, Option.isSome_eq_false_iff,
        Option.isNone_iff_eq_none] at hcredit
      refine hf.of_recorded hr rfl (by simp) fun a ha hrec => ?_
      simp only [booked_eq, hrec, Table.total_insert_of_lookup ht, ProtocolTopup.position, hs,
        hcredit, topupCashMovements, moved_cons_mark, moved_nil, ha.mark]
      rcases hstate with ⟨rfl | rfl, -⟩ | ⟨rfl, -⟩ <;>
        simp [TopupState.committed, TopupState.sent] <;> ring
  | topupCredited ht hs hcredit _ _ _ _ _ _ _ _ hr =>
      refine hf.of_recorded hr rfl (by simp) fun a _ hrec => ?_
      simp only [booked_eq, hrec, Table.total_insert_of_lookup ht, ProtocolTopup.position, hs,
        hcredit, openingPosition, TopupState.committed, TopupState.sent, moved_cons_mark, moved_nil]
      simp
      ring
  | streamOpened hnone hr =>
      refine hf.of_recorded hr rfl (by simp) fun a _ hrec => ?_
      simp only [booked_eq, hrec, hl.unopened hnone, Option.elim_none, moved_nil]
      ring
  | protocolOpened hnone hr =>
      refine hf.of_recorded hr rfl (by simp) fun a _ hrec => ?_
      simp only [booked_eq, hrec, Table.total_insert_fresh hnone]
      ring
  | mainnetOpened hnone _ _ _ _ _ hr =>
      refine hf.of_recorded hr rfl (by simp) fun a _ hrec => ?_
      simp only [booked_eq, hrec, Table.total_insert_fresh hnone]
      ring

end Funds

end TigPool
