/-
# `TigPool.Frozen` — what never changes

A row is made with its terms — who, how much, where to — and these stay.  Its
progress is written into optional columns, each filled in once, and into a state
column that only moves forward.  `Extends` says this for each kind of row;
`Funds.Extends` says it for the funds as a whole, and holds between any two states
of one run.
-/
import TigPool.Lawful

namespace TigPool

open Basis

/-! ## Reservations -/

/-- The reservation as it was made. -/
def Reservation.terms (r : Reservation) : Reservation :=
  { r with
    feeActual := none, state := .reserved, slotHeld := true, collateralOutcome := none,
    benchmarkId := none, assignment := none, assignmentDigest := none, handedOverAt := none,
    activeAtHeight := none, finalization := none }

/-- Nothing was started: refused by TIG, or never sent. -/
def Reservation.Unstarted (r : Reservation) : Prop :=
  r.state = .rejected ∨ (r.state = .cancelled ∧ r.benchmarkId = none)

/-- Accepted by TIG, but returned before the member had it. -/
def Reservation.Unhanded (r : Reservation) : Prop :=
  r.state = .cancelled ∧ r.benchmarkId.isSome

structure Reservation.Extends (r r' : Reservation) : Prop where
  terms : r'.terms = r.terms
  feeActual : Stays r.feeActual r'.feeActual
  outcome : Stays r.collateralOutcome r'.collateralOutcome
  benchmarkId : Stays r.benchmarkId r'.benchmarkId
  handedOverAt : Stays r.handedOverAt r'.handedOverAt
  finalization : Stays r.finalization r'.finalization
  unstarted : r.Unstarted → r'.Unstarted
  unhanded : r.Unhanded → r'.Unhanded

namespace Reservation.Extends

variable {r r' r'' : Reservation}

theorem refl (r : Reservation) : r.Extends r :=
  ⟨rfl, .refl _, .refl _, .refl _, .refl _, .refl _, id, id⟩

theorem trans (h : r.Extends r') (h' : r'.Extends r'') : r.Extends r'' where
  terms := h'.terms.trans h.terms
  feeActual := h.feeActual.trans h'.feeActual
  outcome := h.outcome.trans h'.outcome
  benchmarkId := h.benchmarkId.trans h'.benchmarkId
  handedOverAt := h.handedOverAt.trans h'.handedOverAt
  finalization := h.finalization.trans h'.finalization
  unstarted := h'.unstarted ∘ h.unstarted
  unhanded := h'.unhanded ∘ h.unhanded

theorem memberId (h : r.Extends r') : r'.memberId = r.memberId := by
  have hterms := congrArg Reservation.memberId h.terms
  exact hterms

theorem requestKey (h : r.Extends r') : r'.requestKey = r.requestKey := by
  have hterms := congrArg Reservation.requestKey h.terms
  exact hterms

theorem amount (h : r.Extends r') : r'.amount = r.amount := by
  have hterms := congrArg Reservation.amount h.terms
  exact hterms

theorem feeLimit (h : r.Extends r') : r'.feeLimit = r.feeLimit := by
  have hterms := congrArg Reservation.feeLimit h.terms
  exact hterms

theorem createdAt (h : r.Extends r') : r'.createdAt = r.createdAt := by
  have hterms := congrArg Reservation.createdAt h.terms
  exact hterms

theorem creationRound (h : r.Extends r') : r'.creationRound = r.creationRound := by
  have hterms := congrArg Reservation.creationRound h.terms
  exact hterms

end Reservation.Extends

/-- Work that has come to nothing stays so. -/
theorem Reservation.Turns.begun {r r' : Reservation} (h : r.Turns r') :
    r.state ≠ .rejected ∧ r.state ≠ .cancelled := by
  cases h with
  | progressed hp => cases hp <;> simp [*]
  | accepted hs => simp [hs]
  | unstarted hs => rcases hs with ⟨hs, -⟩ | ⟨hs, -⟩ <;> simp [hs]
  | unhanded hs => simp [hs]
  | finalized hs => rcases hs with hs | hs | hs <;> simp [hs]

theorem Reservation.Lawful.extends {r r' : Reservation} (h : r.Lawful) (ht : r.Turns r') :
    r.Extends r' := by
  have hunstarted : r.Unstarted → r'.Unstarted := by
    rintro (hs | ⟨hs, -⟩)
    · exact absurd hs ht.begun.1
    · exact absurd hs ht.begun.2
  have hunhanded : r.Unhanded → r'.Unhanded := fun hs => absurd hs.1 ht.begun.2
  cases ht with
  | progressed hp =>
      cases hp with
      | submitting =>
          exact ⟨rfl, .refl _, .refl _, .refl _, .refl _, .refl _, hunstarted, hunhanded⟩
      | handedOver _ hnone =>
          exact ⟨rfl, .refl _, .refl _, .refl _, .of_none hnone, .refl _, hunstarted, hunhanded⟩
      | outcome =>
          exact ⟨rfl, .refl _, .refl _, .refl _, .refl _, .refl _, hunstarted, hunhanded⟩
  | accepted hs =>
      have hshape := h.shape.of_unaccepted (Or.inr hs)
      exact ⟨rfl, .of_none hshape.1, .refl _, .of_none hshape.2.2, .refl _, .refl _, hunstarted,
        hunhanded⟩
  | unstarted hs =>
      have hshape := h.shape.of_unaccepted (by
        rcases hs with hs | hs
        · exact Or.inr hs.1
        · exact Or.inl hs.1)
      exact ⟨rfl, .of_none hshape.1, .of_none hshape.2.1, .refl _, .refl _, .refl _, hunstarted,
        hunhanded⟩
  | unhanded hs =>
      have hshape := h.shape.of_accepted hs
      exact ⟨rfl, .refl _, .of_none hshape.2.1, .refl _, .refl _, .refl _, hunstarted, hunhanded⟩
  | finalized hs hnone =>
      refine ⟨rfl, .refl _, .of_none hnone, .refl _, .refl _, .of_none ?_, hunstarted, hunhanded⟩
      cases hf : r.finalization with
      | none => rfl
      | some c =>
          rw [h.shape.finalization_iff hf] at hnone
          cases hnone

/-! ## Transfers and rounds -/

structure Transfer.Extends (t t' : Transfer) : Prop where
  /-- What the chain says about an event never changes. -/
  facts : { t' with attribution := none, roundReceipt := none }
    = { t with attribution := none, roundReceipt := none }
  attribution : Stays t.attribution t'.attribution
  roundReceipt : Stays t.roundReceipt t'.roundReceipt

namespace Transfer.Extends

variable {t t' t'' : Transfer}

theorem refl (t : Transfer) : t.Extends t := ⟨rfl, .refl _, .refl _⟩

theorem trans (h : t.Extends t') (h' : t'.Extends t'') : t.Extends t'' :=
  ⟨h'.facts.trans h.facts, h.attribution.trans h'.attribution, h.roundReceipt.trans h'.roundReceipt⟩

theorem amount (h : t.Extends t') : t'.amount = t.amount := by
  have hfacts := congrArg Transfer.amount h.facts
  exact hfacts

theorem recipient (h : t.Extends t') : t'.recipient = t.recipient := by
  have hfacts := congrArg Transfer.recipient h.facts
  exact hfacts

theorem sender (h : t.Extends t') : t'.sender = t.sender := by
  have hfacts := congrArg Transfer.sender h.facts
  exact hfacts

theorem incoming (h : t.Extends t') (wallet : Option Address) :
    t'.incoming wallet = t.incoming wallet := by
  rw [Transfer.incoming, Transfer.incoming, h.sender, h.recipient]

end Transfer.Extends

theorem Transfer.Lawful.extends {t t' : Transfer} (h : t.Lawful) (ht : t.Turns t') :
    t.Extends t' := by
  cases ht with
  | attributed hnone => exact ⟨rfl, .of_none hnone, .refl _⟩
  | rewarded hnone => exact ⟨rfl, .of_none hnone, .of_none (h.receipt hnone)⟩

structure RoundEarnings.Extends (e e' : RoundEarnings) : Prop where
  declared : { e' with reimbursement := none, settlement := none }
    = { e with reimbursement := none, settlement := none }
  reimbursement : Stays e.reimbursement e'.reimbursement
  settlement : Stays e.settlement e'.settlement

namespace RoundEarnings.Extends

variable {e e' e'' : RoundEarnings}

theorem refl (e : RoundEarnings) : e.Extends e := ⟨rfl, .refl _, .refl _⟩

theorem trans (h : e.Extends e') (h' : e'.Extends e'') : e.Extends e'' :=
  ⟨h'.declared.trans h.declared, h.reimbursement.trans h'.reimbursement,
    h.settlement.trans h'.settlement⟩

end RoundEarnings.Extends

theorem RoundEarnings.Turns.extends {e e' : RoundEarnings} (h : e.Turns e') : e.Extends e' := by
  cases h with
  | reimbursed hnone => exact ⟨rfl, .of_none hnone, .refl _⟩
  | settled hnone => exact ⟨rfl, .refl _, .of_none hnone⟩

/-! ## Withdrawals, attempts, sends and top-ups -/

/-- The withdrawal as it was requested. -/
def Withdrawal.terms (w : Withdrawal) : Withdrawal :=
  { w with state := .requested, paidEvent := none, review := none }

/-- The money is back where it came from. -/
def Withdrawal.Released (w : Withdrawal) : Prop :=
  w.state = .rejected ∨ w.state = .cancelled

structure Withdrawal.Extends (w w' : Withdrawal) : Prop where
  terms : w'.terms = w.terms
  review : Stays w.review w'.review
  paidEvent : Stays w.paidEvent w'.paidEvent
  released : w.Released → w'.Released
  paid : w.state = .paid → w'.state = .paid

namespace Withdrawal.Extends

variable {w w' w'' : Withdrawal}

theorem refl (w : Withdrawal) : w.Extends w := ⟨rfl, .refl _, .refl _, id, id⟩

theorem trans (h : w.Extends w') (h' : w'.Extends w'') : w.Extends w'' :=
  ⟨h'.terms.trans h.terms, h.review.trans h'.review, h.paidEvent.trans h'.paidEvent,
    h'.released ∘ h.released, h'.paid ∘ h.paid⟩

theorem memberId (h : w.Extends w') : w'.memberId = w.memberId := by
  have hterms := congrArg Withdrawal.memberId h.terms
  exact hterms

theorem amount (h : w.Extends w') : w'.amount = w.amount := by
  have hterms := congrArg Withdrawal.amount h.terms
  exact hterms

theorem recipient (h : w.Extends w') : w'.recipient = w.recipient := by
  have hterms := congrArg Withdrawal.recipient h.terms
  exact hterms

theorem kind (h : w.Extends w') : w'.kind = w.kind := by
  have hterms := congrArg Withdrawal.kind h.terms
  exact hterms

theorem createdAt (h : w.Extends w') : w'.createdAt = w.createdAt := by
  have hterms := congrArg Withdrawal.createdAt h.terms
  exact hterms

theorem source (h : w.Extends w') : Withdrawals.source w' = Withdrawals.source w := by
  rw [Withdrawals.source, Withdrawals.source, h.memberId]

end Withdrawal.Extends

theorem Withdrawal.Lawful.extends {w w' : Withdrawal} (h : w.Lawful) (ht : w.Turns w') :
    w.Extends w' := by
  have hpaid : w.state ≠ .paid → w.paidEvent = none := fun hs => by
    simpa using (not_congr h.paidEvent).mpr hs
  cases ht with
  | approved hs hnone =>
      exact ⟨rfl, .of_none hnone, .refl _, by simp [Withdrawal.Released, hs], by simp [hs]⟩
  | released hs hstate =>
      refine ⟨rfl, .refl _, .refl _, fun _ => hstate, fun hp => ?_⟩
      rcases hs with hs | hs <;> rw [hs] at hp <;> cases hp
  | begun hs => exact ⟨rfl, .refl _, .refl _, by simp [Withdrawal.Released, hs], by simp [hs]⟩
  | unpaid hs => exact ⟨rfl, .refl _, .refl _, by simp [Withdrawal.Released, hs], by simp [hs]⟩
  | paid hs =>
      exact ⟨rfl, .refl _, .of_none (hpaid (by simp [hs])), by simp [Withdrawal.Released, hs],
        fun _ => rfl⟩

structure WithdrawalAttempt.Extends (a a' : WithdrawalAttempt) : Prop where
  terms : { a' with outcome := none } = { a with outcome := none }
  outcome : Stays a.outcome a'.outcome

namespace WithdrawalAttempt.Extends

variable {a a' a'' : WithdrawalAttempt}

theorem refl (a : WithdrawalAttempt) : a.Extends a := ⟨rfl, .refl _⟩

theorem trans (h : a.Extends a') (h' : a'.Extends a'') : a.Extends a'' :=
  ⟨h'.terms.trans h.terms, h.outcome.trans h'.outcome⟩

theorem withdrawalId (h : a.Extends a') : a'.withdrawalId = a.withdrawalId := by
  have hterms := congrArg WithdrawalAttempt.withdrawalId h.terms
  exact hterms

theorem feeLimit (h : a.Extends a') : a'.feeLimit = a.feeLimit := by
  have hterms := congrArg WithdrawalAttempt.feeLimit h.terms
  exact hterms

theorem sentAt (h : a.Extends a') : a'.sentAt = a.sentAt := by
  have hterms := congrArg WithdrawalAttempt.sentAt h.terms
  exact hterms

end WithdrawalAttempt.Extends

theorem WithdrawalAttempt.Turns.extends {a a' : WithdrawalAttempt} (h : a.Turns a') :
    a.Extends a' := by
  cases h with
  | reconciled hnone => exact ⟨rfl, .of_none hnone⟩

structure CustodySend.Extends (s s' : CustodySend) : Prop where
  route : { s' with payment := none, authorization := none }
    = { s with payment := none, authorization := none }
  payment : Stays s.payment s'.payment

namespace CustodySend.Extends

variable {s s' s'' : CustodySend}

theorem refl (s : CustodySend) : s.Extends s := ⟨rfl, .refl _⟩

theorem trans (h : s.Extends s') (h' : s'.Extends s'') : s.Extends s'' :=
  ⟨h'.route.trans h.route, h.payment.trans h'.payment⟩

end CustodySend.Extends

theorem CustodySend.Turns.extends {s s' : CustodySend} (h : s.Turns s') : s.Extends s' := by
  cases h with
  | paid hnone => exact ⟨rfl, .of_none hnone⟩

structure ProtocolTopup.Extends (t t' : ProtocolTopup) : Prop where
  terms : { t' with state := .uncertain, credit := none }
    = { t with state := .uncertain, credit := none }
  credit : Stays t.credit t'.credit
  resolved : t.state ≠ .uncertain → t'.state ≠ .uncertain ∧ t'.state.sent = t.state.sent

namespace ProtocolTopup.Extends

variable {t t' t'' : ProtocolTopup}

theorem refl (t : ProtocolTopup) : t.Extends t := ⟨rfl, .refl _, fun h => ⟨h, rfl⟩⟩

theorem trans (h : t.Extends t') (h' : t'.Extends t'') : t.Extends t'' := by
  refine ⟨h'.terms.trans h.terms, h.credit.trans h'.credit, fun hs => ?_⟩
  obtain ⟨hs', hsent⟩ := h.resolved hs
  obtain ⟨hs'', hsent'⟩ := h'.resolved hs'
  exact ⟨hs'', hsent'.trans hsent⟩

theorem amount (h : t.Extends t') : t'.amount = t.amount := by
  have hterms := congrArg ProtocolTopup.amount h.terms
  exact hterms

theorem feeLimit (h : t.Extends t') : t'.feeLimit = t.feeLimit := by
  have hterms := congrArg ProtocolTopup.feeLimit h.terms
  exact hterms

theorem sentAt (h : t.Extends t') : t'.sentAt = t.sentAt := by
  have hterms := congrArg ProtocolTopup.sentAt h.terms
  exact hterms

theorem preflightBlock (h : t.Extends t') : t'.preflightBlock = t.preflightBlock := by
  have hterms := congrArg ProtocolTopup.preflightBlock h.terms
  exact hterms

end ProtocolTopup.Extends

theorem ProtocolTopup.Turns.extends {t t' : ProtocolTopup} (h : t.Turns t') : t.Extends t' := by
  cases h with
  | reconciled hs => exact ⟨rfl, .refl _, fun hne => absurd hs hne⟩
  | credited hs hnone =>
      exact ⟨rfl, .of_none hnone, fun _ => ⟨by simp, by rw [hs]; rfl⟩⟩

/-! ## The funds -/

namespace Funds

structure Extends (f f' : Funds) : Prop where
  reservation : Basis.Extends Reservation.Extends f.reservations f'.reservations
  transfer : Basis.Extends Transfer.Extends f.transfers f'.transfers
  earnings : Basis.Extends RoundEarnings.Extends f.roundEarnings f'.roundEarnings
  withdrawal : Basis.Extends Withdrawal.Extends f.withdrawals f'.withdrawals
  attempt : Basis.Extends WithdrawalAttempt.Extends f.withdrawalAttempts f'.withdrawalAttempts
  send : Basis.Extends CustodySend.Extends f.custodySends f'.custodySends
  topup : Basis.Extends ProtocolTopup.Extends f.protocolTopups f'.protocolTopups
  journal : Basis.Extends Eq f.ledger.journals f'.ledger.journals
  transaction : Basis.Extends Eq f.chainTransactions f'.chainTransactions
  multiplierChange : Basis.Extends Eq f.multiplierChanges f'.multiplierChanges
  topupFact : Basis.Extends Eq f.topupFacts f'.topupFacts
  protocolOpening : Basis.Extends Eq f.protocolOpeningCredits f'.protocolOpeningCredits
  mainnetOpening : Basis.Extends Eq f.mainnetOpeningCredits f'.mainnetOpeningCredits
  identity : Stays f.custodyIdentity f'.custodyIdentity
  baseline : f.chainStream.isSome →
    f'.chainStream.isSome ∧ f'.openingBaseline = f.openingBaseline
  alerts : f'.fundingAlerts = [] → f.fundingAlerts = []

variable {f f' f'' : Funds} {c : Change}

theorem Extends.refl (f : Funds) : f.Extends f where
  reservation := .refl .refl
  transfer := .refl .refl
  earnings := .refl .refl
  withdrawal := .refl .refl
  attempt := .refl .refl
  send := .refl .refl
  topup := .refl .refl
  journal := .refl fun _ => rfl
  transaction := .refl fun _ => rfl
  multiplierChange := .refl fun _ => rfl
  topupFact := .refl fun _ => rfl
  protocolOpening := .refl fun _ => rfl
  mainnetOpening := .refl fun _ => rfl
  identity := .refl _
  baseline h := ⟨h, rfl⟩
  alerts := id

theorem Extends.trans (h : f.Extends f') (h' : f'.Extends f'') : f.Extends f'' where
  reservation := Basis.Extends.trans h.reservation h'.reservation fun _ _ _ => .trans
  transfer := Basis.Extends.trans h.transfer h'.transfer fun _ _ _ => .trans
  earnings := Basis.Extends.trans h.earnings h'.earnings fun _ _ _ => .trans
  withdrawal := Basis.Extends.trans h.withdrawal h'.withdrawal fun _ _ _ => .trans
  attempt := Basis.Extends.trans h.attempt h'.attempt fun _ _ _ => .trans
  send := Basis.Extends.trans h.send h'.send fun _ _ _ => .trans
  topup := Basis.Extends.trans h.topup h'.topup fun _ _ _ => .trans
  journal := Basis.Extends.trans h.journal h'.journal fun _ _ _ => .trans
  transaction := Basis.Extends.trans h.transaction h'.transaction fun _ _ _ => .trans
  multiplierChange := Basis.Extends.trans h.multiplierChange h'.multiplierChange fun _ _ _ => .trans
  topupFact := Basis.Extends.trans h.topupFact h'.topupFact fun _ _ _ => .trans
  protocolOpening := Basis.Extends.trans h.protocolOpening h'.protocolOpening fun _ _ _ => .trans
  mainnetOpening := Basis.Extends.trans h.mainnetOpening h'.mainnetOpening fun _ _ _ => .trans
  identity := h.identity.trans h'.identity
  baseline hs := by
    obtain ⟨hs', heq⟩ := h.baseline hs
    obtain ⟨hs'', heq'⟩ := h'.baseline hs'
    exact ⟨hs'', heq'.trans heq⟩
  alerts := h.alerts ∘ h'.alerts

theorem Step.journal (h : Step f c f') : Basis.Extends Eq f.ledger.journals f'.ledger.journals := by
  have hrec : ∀ {key m} {ledger ledger' : Ledger}, ledger.Recorded key m ledger' →
      Basis.Extends Eq ledger.journals ledger'.journals :=
    fun hr k j hj => ⟨j, hr.journal_stays hj, rfl⟩
  cases h with
  | corrected hpost => exact .fresh (fun _ => rfl) hpost.fresh
  | nativeFunded _ _ hr => exact hrec hr
  | received _ _ hr => exact hrec hr
  | attributed _ _ _ _ hr => exact hrec hr
  | rewarded _ _ _ _ _ _ _ _ hr => exact hrec hr
  | reserved _ _ _ _ _ _ hr => exact hrec hr
  | accepted _ _ _ _ hr => exact hrec hr
  | unstarted _ _ _ hr hr' => exact (hrec hr).trans (hrec hr') fun _ _ _ => .trans
  | unhanded _ _ _ hr => exact hrec hr
  | finalized _ _ _ _ _ hr => exact hrec hr
  | reimbursed _ _ _ hr => exact hrec hr
  | settled _ _ _ _ _ _ _ _ hr => exact hrec hr
  | requested _ _ _ _ _ _ _ _ hr => exact hrec hr
  | released _ _ _ hr => exact hrec hr
  | begun _ _ _ _ _ _ _ _ _ _ _ hr => exact hrec hr
  | unpaid _ _ _ _ _ _ _ _ _ hr => exact hrec hr
  | paid _ _ _ _ _ _ _ _ _ _ _ _ _ _ _ _ _ hr => exact hrec hr
  | topupBegun _ _ _ _ hr => exact hrec hr
  | topupReconciled _ _ _ _ _ hr => exact hrec hr
  | topupCredited _ _ _ _ _ _ _ _ _ _ _ hr => exact hrec hr
  | streamOpened _ hr => exact hrec hr
  | protocolOpened _ hr => exact hrec hr
  | mainnetOpened _ _ _ _ _ _ hr => exact hrec hr
  | _ => exact .refl fun _ => rfl

theorem Step.extends (hl : f.LawfulRows) (h : Step f c f') : f.Extends f' where
  reservation := .of_evolves .refl (fun hr => (hl.reservation hr).extends) h.reservation
  transfer := .of_evolves .refl (fun ht => (hl.transfer ht).extends) h.transfer
  earnings := .of_evolves .refl (fun _ => RoundEarnings.Turns.extends) h.earnings
  withdrawal := .of_evolves .refl (fun hw => (hl.withdrawal hw).extends) h.withdrawal
  attempt := .of_evolves .refl (fun _ => WithdrawalAttempt.Turns.extends) h.attempt
  send := .of_evolves .refl (fun _ => CustodySend.Turns.extends) h.send
  topup := .of_evolves .refl (fun _ => ProtocolTopup.Turns.extends) h.topup
  journal := h.journal
  transaction := by
    cases h with
    | transactionSaved hnone => exact .fresh (fun _ => rfl) hnone
    | _ => exact .refl fun _ => rfl
  multiplierChange := by
    cases h with
    | multiplierSet _ hnone => exact .fresh (fun _ => rfl) hnone
    | _ => exact .refl fun _ => rfl
  topupFact := by
    cases h with
    | fundingRecorded _ _ hfacts => exact fun k t ht => ⟨t, hfacts ht, rfl⟩
    | _ => exact .refl fun _ => rfl
  protocolOpening := by
    cases h with
    | protocolOpened hnone => exact .fresh (fun _ => rfl) hnone
    | _ => exact .refl fun _ => rfl
  mainnetOpening := by
    cases h with
    | mainnetOpened hnone => exact .fresh (fun _ => rfl) hnone
    | _ => exact .refl fun _ => rfl
  identity _ := h.custodyIdentity
  baseline hs := by
    cases h with
    | batchRecorded => exact ⟨rfl, rfl⟩
    | streamOpened hnone =>
        rw [hnone] at hs
        cases hs
    | _ => exact ⟨hs, rfl⟩
  alerts := by
    cases h with
    | fundingRecorded halerts => exact halerts
    | _ => exact id

end Funds

end TigPool
