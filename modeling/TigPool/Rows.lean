/-
# `TigPool.Rows` — how the rows of the funds evolve

For each table, which rows can be made and how a row can turn, read off the steps
of `Funds.Step` once.  The later modules reason about a reservation, a withdrawal
or a transfer with these alone.
-/
import TigPool.Changes
import TigPool.Basis.Evolution

namespace TigPool

open Basis

/-! ## Reservations -/

/-- How a reservation can turn into its next version. -/
inductive Reservation.Turns (r : Reservation) : Reservation → Prop
  | progressed {r' : Reservation} : r.Progress r' → Turns r r'
  | accepted {actual : ℕ} {benchmarkId : String} {assignment : Json} : r.state = .uncertain →
      actual ≤ r.feeLimit →
      Turns r { r with
        feeActual := some actual, state := .accepted, benchmarkId := some benchmarkId,
        assignment := some assignment, assignmentDigest := some assignment }
  | unstarted {actual : ℕ} {state : ReservationState} :
      (r.state = .uncertain ∧ state = .rejected ∨ r.state = .reserved ∧ state = .cancelled) →
      actual ≤ r.feeLimit →
      Turns r { r with
        feeActual := some actual, state, slotHeld := false, collateralOutcome := some .returned }
  | unhanded : r.state = .accepted → r.handedOverAt = none →
      Turns r { r with
        state := .cancelled, slotHeld := false, collateralOutcome := some .returned }
  | finalized {c : CollateralFinalization} :
      (r.state = .active ∨ r.state = .verificationFailed ∨ r.state = .expired) →
      r.collateralOutcome = none → c.amount = r.amount →
      Turns r { r with collateralOutcome := some c.outcome, finalization := some c }

/-! ## Transfers and rounds -/

structure Transfer.Unclaimed (t : Transfer) : Prop where
  attribution : t.attribution = none
  roundReceipt : t.roundReceipt = none

inductive Transfer.Turns (t : Transfer) : Transfer → Prop
  | attributed {a : TransferAttribution} : t.attribution = none →
      depositDestination a.destination → Turns t { t with attribution := some a }
  | rewarded {a : TransferAttribution} {r : RoundReceipt} : t.attribution = none →
      a.destination = pot r.round → r.amount = t.amount →
      Turns t { t with attribution := some a, roundReceipt := some r }

structure RoundEarnings.Declared (e : RoundEarnings) : Prop where
  reimbursement : e.reimbursement = none
  settlement : e.settlement = none

inductive RoundEarnings.Turns (e : RoundEarnings) : RoundEarnings → Prop
  | reimbursed : e.reimbursement = none → e.settlement = none →
      Turns e { e with reimbursement := some ⟨e.withheldOperatingCost⟩ }
  | settled {s : RoundSettlement} : e.settlement = none →
      s.pot = (s.shares.map (·.2)).sum → (∀ share ∈ s.shares, 0 ≤ share.2) →
      Turns e { e with settlement := some s }

/-! ## Withdrawals, attempts, sends and top-ups -/

structure Withdrawal.Fresh (w : Withdrawal) : Prop where
  state : w.state = .requested
  paidEvent : w.paidEvent = none
  review : w.review = none
  kind : w.kind = .operator ↔ w.memberId = none

inductive Withdrawal.Turns (w : Withdrawal) : Withdrawal → Prop
  | approved {review : WithdrawalReview} : w.state = .requested → w.review = none →
      w.recipient ≠ review.sender →
      Turns w { w with review := some review, state := .approved }
  | released {state : WithdrawalState} : (w.state = .requested ∨ w.state = .approved) →
      (state = .rejected ∨ state = .cancelled) → Turns w { w with state }
  | begun : w.state = .approved → w.review.isSome → Turns w { w with state := .uncertain }
  | unpaid : w.state = .uncertain → Turns w { w with state := .approved }
  | paid {e : EventId} : w.state = .uncertain →
      Turns w { w with state := .paid, paidEvent := some e }

inductive WithdrawalAttempt.Turns (a : WithdrawalAttempt) : WithdrawalAttempt → Prop
  | reconciled {result : WithdrawalAttemptOutcome} : a.outcome = none →
      Turns a { a with outcome := some result }

structure CustodySend.Fresh (s : CustodySend) : Prop where
  payment : s.payment = none
  authorization : s.authorization = none

inductive CustodySend.Turns (s : CustodySend) : CustodySend → Prop
  | paid {p : CustodyPayment} {authorization : Option AuthorizationPayment} : s.payment = none →
      p.chainId = s.chainId → Turns s { s with payment := some p, authorization }

structure ProtocolTopup.Fresh (t : ProtocolTopup) : Prop where
  state : t.state = .uncertain
  credit : t.credit = none

inductive ProtocolTopup.Turns (t : ProtocolTopup) : ProtocolTopup → Prop
  | reconciled {state : TopupState} : t.state = .uncertain →
      (state = .failed ∨ state = .cancelled ∨ state = .awaitingProtocol) →
      Turns t { t with state }
  | credited {c : TopupCredit} : t.state = .awaitingProtocol → t.credit = none →
      Turns t { t with state := .credited, credit := some c }

/-! ## Members -/

structure Member.Fresh (m : Member) : Prop where
  multiplier : m.multiplier = .one
  revision : m.multiplierRevision = 0
  lastPaidAt : m.lastPaidAt = none

inductive Member.Turns (m : Member) : Member → Prop
  | wallet {wallet : Address} : Turns m { m with withdrawalWallet := wallet }
  | multiplier {value : Multiplier} :
      Turns m { m with multiplier := value, multiplierRevision := m.multiplierRevision + 1 }
  | paid {paidAt : Time} : Turns m { m with lastPaidAt := some paidAt }

namespace Funds

variable {f f' : Funds} {c : Change}

theorem Step.reservation (h : Step f c f') (id : Uuid) :
    Evolves Reservation.Fresh Reservation.Turns (f.reservations.lookup id)
      (f'.reservations.lookup id) := by
  cases h with
  | reserved hnone hfresh =>
      refine Evolves.insert ?_ id
      rw [hnone]
      exact .made hfresh
  | progressed hr hp =>
      refine Evolves.insert ?_ id
      rw [hr]
      exact .turned (.progressed hp)
  | accepted hr hstate hactual =>
      refine Evolves.insert ?_ id
      rw [hr]
      exact .turned (.accepted hstate hactual)
  | unstarted hr hstate hactual =>
      refine Evolves.insert ?_ id
      rw [hr]
      exact .turned (.unstarted hstate hactual)
  | unhanded hr hstate hhanded =>
      refine Evolves.insert ?_ id
      rw [hr]
      exact .turned (.unhanded hstate hhanded)
  | finalized hr hstate hnone hamount =>
      refine Evolves.insert ?_ id
      rw [hr]
      exact .turned (.finalized hstate hnone hamount)
  | _ => exact .same

theorem Step.transfer (h : Step f c f') (e : EventId) :
    Evolves Transfer.Unclaimed Transfer.Turns (f.transfers.lookup e) (f'.transfers.lookup e) := by
  cases h with
  | transferSaved hnone _ ha hr =>
      refine Evolves.insert ?_ e
      rw [hnone]
      exact .made ⟨ha, hr⟩
  | attributed ht _ hnone hdest =>
      refine Evolves.insert ?_ e
      rw [ht]
      exact .turned (.attributed hnone hdest)
  | rewarded ht _ hnone hdest hamount =>
      refine Evolves.insert ?_ e
      rw [ht]
      exact .turned (.rewarded hnone hdest hamount)
  | _ => exact .same

theorem Step.earnings (h : Step f c f') (n : ℕ) :
    Evolves RoundEarnings.Declared RoundEarnings.Turns (f.roundEarnings.lookup n)
      (f'.roundEarnings.lookup n) := by
  cases h with
  | declared hnone hr hs =>
      refine Evolves.insert ?_ n
      rw [hnone]
      exact .made ⟨hr, hs⟩
  | reimbursed he hr hs =>
      refine Evolves.insert ?_ n
      rw [he]
      exact .turned (.reimbursed hr hs)
  | settled he hs _ _ hsum hnonneg =>
      refine Evolves.insert ?_ n
      rw [he]
      exact .turned (.settled hs hsum hnonneg)
  | _ => exact .same

theorem Step.withdrawal (h : Step f c f') (id : Uuid) :
    Evolves Withdrawal.Fresh Withdrawal.Turns (f.withdrawals.lookup id)
      (f'.withdrawals.lookup id) := by
  cases h with
  | requested hnone hs hp hr hk =>
      refine Evolves.insert ?_ id
      rw [hnone]
      exact .made ⟨hs, hp, hr, hk⟩
  | approved hw hs hr hrecipient =>
      refine Evolves.insert ?_ id
      rw [hw]
      exact .turned (.approved hs hr hrecipient)
  | released hw hs hstate =>
      refine Evolves.insert ?_ id
      rw [hw]
      exact .turned (.released hs hstate)
  | begun hw hs hr =>
      refine Evolves.insert ?_ id
      rw [hw]
      exact .turned (.begun hs (by rw [hr]; rfl))
  | unpaid _ _ _ hw hs =>
      refine Evolves.insert ?_ id
      rw [hw]
      exact .turned (.unpaid hs)
  | paid _ _ _ hw hs =>
      refine Evolves.insert ?_ id
      rw [hw]
      exact .turned (.paid hs)
  | _ => exact .same

theorem Step.attempt (h : Step f c f') (aid : Uuid) :
    Evolves (fun a => a.outcome = none) WithdrawalAttempt.Turns (f.withdrawalAttempts.lookup aid)
      (f'.withdrawalAttempts.lookup aid) := by
  cases h with
  | begun _ _ _ _ houtcome _ _ _ _ hnone =>
      refine Evolves.insert ?_ aid
      rw [hnone]
      exact .made houtcome
  | unpaid ha hnone =>
      refine Evolves.insert ?_ aid
      rw [ha]
      exact .turned (.reconciled hnone)
  | paid ha hnone =>
      refine Evolves.insert ?_ aid
      rw [ha]
      exact .turned (.reconciled hnone)
  | _ => exact .same

theorem Step.send (h : Step f c f') (id : Uuid) :
    Evolves CustodySend.Fresh CustodySend.Turns (f.custodySends.lookup id)
      (f'.custodySends.lookup id) := by
  cases h with
  | begun _ _ _ _ _ _ _ _ _ _ hs =>
      refine Evolves.insert ?_ id
      rw [hs.fresh]
      exact .made ⟨hs.payment, hs.authorization⟩
  | unpaid _ _ _ _ _ hs hp =>
      refine Evolves.insert ?_ id
      rw [hs]
      exact .turned (.paid hp.unpaid hp.chain)
  | paid _ _ _ _ _ hs hp =>
      refine Evolves.insert ?_ id
      rw [hs]
      exact .turned (.paid hp.unpaid hp.chain)
  | topupBegun _ _ _ hs =>
      refine Evolves.insert ?_ id
      rw [hs.fresh]
      exact .made ⟨hs.payment, hs.authorization⟩
  | topupReconciled _ _ hs hp =>
      refine Evolves.insert ?_ id
      rw [hs]
      exact .turned (.paid hp.unpaid hp.chain)
  | _ => exact .same

theorem Step.topup (h : Step f c f') (id : Uuid) :
    Evolves ProtocolTopup.Fresh ProtocolTopup.Turns (f.protocolTopups.lookup id)
      (f'.protocolTopups.lookup id) := by
  cases h with
  | topupBegun hnone hs hc =>
      refine Evolves.insert ?_ id
      rw [hnone]
      exact .made ⟨hs, hc⟩
  | topupReconciled ht hs _ _ hstate =>
      refine Evolves.insert ?_ id
      rw [ht]
      refine .turned (.reconciled hs ?_)
      rcases hstate with ⟨h | h, -⟩ | ⟨h, -⟩ <;> simp [h]
  | topupCredited ht hs hc =>
      refine Evolves.insert ?_ id
      rw [ht]
      exact .turned (.credited hs hc)
  | _ => exact .same

theorem Step.member (h : Step f c f') (m : Uuid) :
    Evolves Member.Fresh Member.Turns (f.members.lookup m) (f'.members.lookup m) := by
  cases h with
  | memberRegistered hnone hm hr hp =>
      refine Evolves.insert ?_ m
      rw [hnone]
      exact .made ⟨hm, hr, hp⟩
  | walletSet hrow =>
      refine Evolves.insert ?_ m
      rw [hrow]
      exact .turned .wallet
  | multiplierSet hrow =>
      refine Evolves.insert ?_ m
      rw [hrow]
      exact .turned .multiplier
  | paid _ _ _ _ _ _ _ _ _ _ _ _ _ _ _ _ hmembers =>
      rw [hmembers]
      cases f.members.lookup m with
      | none => exact .same
      | some row =>
          rw [Option.map_some]
          split
          next => exact .turned .paid
          next => exact .same
  | _ => exact .same

end Funds

end TigPool
