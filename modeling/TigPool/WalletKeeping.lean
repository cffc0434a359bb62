/-
# `TigPool.WalletKeeping` — who writes withdrawal wallets

A member's withdrawal wallet is set when the member registers and by
`setWithdrawalWallet`.  Every other transaction of the service leaves it as it is, which is
read off each operation line by line.
-/
import TigPool.Basis.Returns
import TigPool.Service

namespace TigPool

open Basis

/-- The row has the same withdrawal wallet. -/
def Member.SameWallet (row row' : Member) : Prop :=
  row'.withdrawalWallet = row.withdrawalWallet

/-- Every member is still there, with the same withdrawal wallet. -/
abbrev Db.KeepsWallets (db db' : Db) : Prop :=
  Basis.Extends Member.SameWallet db.funds.members db'.funds.members

theorem Db.keepsWallets (db : Db) : db.KeepsWallets db := Basis.Extends.refl fun _ => rfl

namespace Db.KeepsWallets

variable {db db' db'' : Db}

theorem trans (h : db.KeepsWallets db') (h' : db'.KeepsWallets db'') : db.KeepsWallets db'' :=
  Basis.Extends.trans h h' fun _ _ _ h h' => Eq.trans h' h

/-- After a sequence that keeps them, another one. -/
theorem and {x : Result Db} (h : db.KeepsWallets db') (hx : Returns db'.KeepsWallets x) :
    Returns db.KeepsWallets x :=
  hx.mono fun _ => h.trans

/-- The row of one member is written, and keeps its wallet. -/
theorem put {m : Uuid} {row row' : Member} (hrow : db.funds.members.lookup m = some row)
    (h : row.SameWallet row') : db.KeepsWallets (db.putMember m row') := by
  intro k a ha
  rcases eq_or_ne k m with rfl | hne
  · obtain rfl := Option.some.inj (hrow.symm.trans ha)
    exact ⟨row', AList.lookup_insert _, h⟩
  · exact ⟨a, (AList.lookup_insert_ne hne).trans ha, rfl⟩

end Db.KeepsWallets

variable {db : Db}

/-! ## Members and reservations -/

theorem registerVerified_keepsWallets {wallet : String} {identity : Uuid} :
    Returns (fun p => db.KeepsWallets p.1) (registerVerified db wallet identity) := by
  refine .after fun wallet => ?_
  split
  next => exact .ok db.keepsWallets
  next =>
    intro p h
    simp only [bind_eq_ok, require_eq_ok, exists_const, pure_eq_ok] at h
    obtain ⟨hfresh, ledger, -, rfl⟩ := h
    exact Basis.Extends.fresh (fun _ => rfl) (AList.lookup_eq_none.mpr hfresh)

theorem setMultiplier_keepsWallets {memberId : Uuid} {value : DecimalInput}
    {actor reason eventKey : String} :
    Returns db.KeepsWallets (setMultiplier db memberId value actor reason eventKey) := by
  intro db' h
  simp only [setMultiplier, bind_eq_ok, require_eq_ok, exists_const, memberLock, fetch_eq_ok] at h
  obtain ⟨value, -, -, member, hmember, h⟩ := h
  split at h
  next =>
    simp only [bind_eq_ok, require_eq_ok, exists_const, pure_eq_ok] at h
    obtain ⟨-, rfl⟩ := h
    exact db.keepsWallets
  next =>
    simp only [bind_eq_ok, require_eq_ok, exists_const, pure_eq_ok] at h
    obtain ⟨-, rfl⟩ := h
    exact @Db.KeepsWallets.put { db with funds := { db.funds with multiplierChanges := _ } } _ _ _
      hmember rfl

theorem initializeAccounts_keepsWallets : Returns db.KeepsWallets (initializeAccounts db) :=
  .after fun _ => .after fun _ => .after fun _ => .after fun _ => .after fun _ => .after fun _ =>
    .after fun _ => .ok db.keepsWallets

theorem event_keepsWallets {identity : Uuid} {kind : ReservationEventKind} {details : Json} :
    Returns db.KeepsWallets (event db identity kind details) := by
  unfold event
  split
  next => exact .after fun _ => .ok db.keepsWallets
  next => exact .ok db.keepsWallets

theorem reserve_keepsWallets {memberId : Uuid} {requestKey : String} {creationRound : ℤ}
    {resource : Resource} {selection payload : Json} {feeLimit : ℤ} {offerExpiresAt : Time}
    {around : Surroundings} {identity : Uuid} :
    Returns (fun p => db.KeepsWallets p.1) (reserve db memberId requestKey creationRound resource
      selection payload feeLimit offerExpiresAt around identity) := by
  refine .after fun _ => .after fun _ => .after fun _ => .after fun _ => .after fun _ => ?_
  split
  next => exact .after fun _ => .ok db.keepsWallets
  next =>
    refine .after fun _ => .after fun _ => .after fun _ => .after fun _ => .after fun _ =>
      .after fun _ => .after fun _ => .after fun _ => .afterIf fun _ => .after fun _ => ?_
    exact .step event_keepsWallets fun _ h => .ok h

theorem markSubmitting_keepsWallets {identity : Uuid} {around : Surroundings} :
    Returns (fun p => db.KeepsWallets p.1) (markSubmitting db identity around) := by
  refine .after fun _ => .after fun _ => .after fun _ => .after fun _ => .after fun _ =>
    .after fun _ => ?_
  exact .step event_keepsWallets fun _ h => .ok h

theorem fees_keepsWallets {identity : Uuid} {row : Reservation} {actual : ℤ} :
    Returns (fun p => db.KeepsWallets p.1) (fees db identity row actual) :=
  .after fun _ => .after fun _ => .afterIf fun _ => .ok db.keepsWallets

theorem accept_keepsWallets {identity : Uuid} {benchmarkId : String} {assignment evidence : Json}
    {actualFee : ℤ} : Returns (fun p => db.KeepsWallets p.1)
      (accept db identity benchmarkId assignment actualFee evidence) := by
  refine .after fun _ => .after fun row => ?_
  split
  next => exact .after fun _ => .ok db.keepsWallets
  next =>
    refine .after fun _ => .step fees_keepsWallets fun p hp => .after fun _ => ?_
    exact .step event_keepsWallets fun _ h => .ok (hp.trans h)

theorem releaseUnstarted_keepsWallets {identity : Uuid} {rejected : Bool} {actualFee : ℤ}
    {evidence : Json} : Returns (fun p => db.KeepsWallets p.1)
      (releaseUnstarted db identity rejected actualFee evidence) := by
  refine .after fun _ => .after fun row => .ite ?_ ?_
  · exact .after fun _ => .ok db.keepsWallets
  · refine .after fun _ => .after fun _ => .step fees_keepsWallets fun p hp => ?_
    refine .afterIf fun _ => ?_
    exact .step event_keepsWallets fun _ h => .ok (hp.trans h)

theorem releaseUnhanded_keepsWallets {identity : Uuid} {actor reason eventKey : String} :
    Returns (fun p => db.KeepsWallets p.1)
      (releaseUnhanded db identity actor reason eventKey) := by
  refine .after fun _ => .after fun row => .ite ?_ ?_
  · exact .step event_keepsWallets fun _ h => .ok h
  · refine .after fun _ => .after fun _ => .after fun _ => .after fun _ => .after fun _ => ?_
    refine .afterIf fun _ => ?_
    exact .step event_keepsWallets fun _ h => .ok h

theorem acknowledge_keepsWallets {identity memberId : Uuid} {digest : Json} :
    Returns (fun p => db.KeepsWallets p.1) (acknowledge db identity memberId digest) := by
  refine .after fun row => .after fun _ => .ite ?_ ?_
  · exact .ok db.keepsWallets
  · exact .after fun _ => .step event_keepsWallets fun _ h => .ok h

theorem recordOutcome_keepsWallets {identity : Uuid} {outcome : DefinitiveOutcome} {height : ℤ}
    {evidence : Json} : Returns (fun p => db.KeepsWallets p.1)
      (recordOutcome db identity outcome height evidence) := by
  refine .after fun _ => .after fun _ => .after fun row => .ite ?_ ?_
  · exact .ok db.keepsWallets
  · exact .after fun _ => .after fun _ => .step event_keepsWallets fun _ h => .ok h

/-! ## Custody and deposits -/

namespace Custody

theorem bind_keepsWallets {network : Network} : Returns db.KeepsWallets (bind db network) := by
  refine .after fun _ => ?_
  split
  next => exact .after fun _ => .ok db.keepsWallets
  next => exact .after fun _ => .ok db.keepsWallets

theorem saveTransaction_keepsWallets {transaction : ConfirmedTransaction} :
    Returns db.KeepsWallets (saveTransaction db transaction) := by
  refine .step bind_keepsWallets fun db₁ h => ?_
  dsimp only
  split
  next => exact .after fun _ => .ok h
  next => exact .after fun _ => .ok h

theorem receiveNative_keepsWallets {transaction : ConfirmedTransaction} :
    Returns db.KeepsWallets (receiveNative db transaction) := by
  refine .after fun _ => .step bind_keepsWallets fun db₁ h => ?_
  exact .step saveTransaction_keepsWallets fun db₂ h' => .after fun _ => .ok (h.trans h')

theorem reserveNonce_keepsWallets {identity : Uuid} {network : Network} {nonce : ℕ}
    {kind : SendKind} : Returns db.KeepsWallets (reserveNonce db identity network nonce kind) :=
  .step bind_keepsWallets fun _ h => .after fun _ => .after fun _ => .ok h

theorem recordPayment_keepsWallets {identity : Uuid} {transaction : ConfirmedTransaction}
    {transferEvent : Option EventId} {journal : EventKey} {sponsorship : Option Sponsorship} :
    Returns db.KeepsWallets
      (recordPayment db identity transaction transferEvent journal sponsorship) := by
  refine .after fun _ => .after fun _ => .after fun _ => ?_
  split
  next => exact .after fun _ => .ok db.keepsWallets
  next => exact .after fun _ => .after fun _ => .after fun _ => .ok db.keepsWallets

end Custody

namespace Deposits

theorem saveTransfer_keepsWallets {transfer : ConfirmedTransfer} :
    Returns db.KeepsWallets (saveTransfer db transfer) := by
  refine .step Custody.bind_keepsWallets fun db₁ h => ?_
  split
  next => exact .after fun _ => .ok h
  next => exact .ok h

theorem saveAny_keepsWallets {transfer : Option ConfirmedTransfer} :
    Returns db.KeepsWallets (transfer.elim (.ok db) fun t => saveTransfer db t) :=
  .elim (.ok db.keepsWallets) fun _ => saveTransfer_keepsWallets

theorem attributeTransfer_keepsWallets {transfer : ConfirmedTransfer} {destination : AccountId}
    {actor : String} {evidence : Json} :
    Returns db.KeepsWallets (attributeTransfer db transfer destination actor evidence) := by
  refine .after fun row => ?_
  split
  next => exact .after fun _ => .ok db.keepsWallets
  next => exact .afterIf fun _ => .after fun _ => .ok db.keepsWallets

theorem receive_keepsWallets {transfer : ConfirmedTransfer} :
    Returns (fun p => db.KeepsWallets p.1) (receive db transfer) := by
  refine .after fun _ => .step saveTransfer_keepsWallets fun db₁ h => .afterIf fun ledger => ?_
  dsimp only
  split
  next => exact .ok h
  next =>
    split
    next => exact .step attributeTransfer_keepsWallets fun _ h' => .ok (h.trans h')
    next => exact .ok h

theorem attributeReviewed_keepsWallets {transfer : ConfirmedTransfer} {actor : String}
    {evidence : Json} {destination : ReviewedDestination} :
    Returns db.KeepsWallets (attributeReviewed db transfer actor evidence destination) := by
  refine .after fun _ => .after fun _ => .step Custody.bind_keepsWallets fun db₁ h => ?_
  refine .after fun _ => .step saveTransfer_keepsWallets fun db₂ h' => ?_
  split
  next => exact .after fun _ => (h.trans h').and attributeTransfer_keepsWallets
  next => exact (h.trans h').and attributeTransfer_keepsWallets

end Deposits

theorem receiveInternalNative_keepsWallets {receipt : InternalNativeReceipt} {actor : String} :
    Returns db.KeepsWallets (receiveInternalNative db receipt actor) := by
  refine .after fun _ => .after fun _ => .after fun _ => .after fun _ => ?_
  refine .step Custody.bind_keepsWallets fun db₁ h => ?_
  refine .step Custody.saveTransaction_keepsWallets fun db₂ h' => ?_
  dsimp only
  split
  next => exact .after fun _ => .ok (h.trans h')
  next => exact .after fun _ => .ok (h.trans h')

/-! ## Settlement -/

namespace Settlement

theorem finalizeCollateral_keepsWallets {identity sealId : Uuid} :
    Returns (fun p => db.KeepsWallets p.1) (finalizeCollateral db identity sealId) := by
  refine .after fun row => .ite (.ok db.keepsWallets) ?_
  refine .after fun _ => .after fun _ => .after fun _ => .after fun _ => ?_
  refine .ite (.after fun _ => ?_) (.after fun _ => .after fun _ => ?_) <;>
    exact .afterIf fun _ => .step event_keepsWallets fun _ h => .ok h

theorem declareEarnings_keepsWallets {round net cost : ℤ} {blockId : String} {evidence : Json} :
    Returns (fun p => db.KeepsWallets p.1)
      (declareEarnings db round net cost blockId evidence) := by
  refine .after fun _ => .after fun _ => .after fun _ => .after fun _ => .after fun _ =>
    .after fun _ => ?_
  split
  next => exact .after fun _ => .ok db.keepsWallets
  next => exact .after fun _ => .ok db.keepsWallets

theorem attributeReceipt_keepsWallets {round : ℤ} {transfer : ConfirmedTransfer}
    {evidence : Json} : Returns (fun p => db.KeepsWallets p.1)
      (attributeReceipt db round transfer evidence) := by
  refine .after fun _ => .after fun _ => .after fun _ => .after fun _ => ?_
  refine .step Custody.bind_keepsWallets fun db₁ h => ?_
  split
  next =>
    refine .after fun _ => ?_
    exact .step Deposits.saveTransfer_keepsWallets fun _ h' => .ok (h.trans h')
  next =>
    refine .after fun _ => .after fun _ => .after fun _ => ?_
    refine .step Deposits.saveTransfer_keepsWallets fun db₂ h' => .after fun _ => .after fun _ => ?_
    refine .step Deposits.attributeTransfer_keepsWallets fun db₃ h'' => .after fun _ => ?_
    exact .ok ((h.trans h').trans h'')

theorem reimburseOperatingCost_keepsWallets {round : ℕ} :
    Returns (fun p => db.KeepsWallets p.1) (reimburseOperatingCost db round) := by
  refine .after fun earnings => ?_
  split
  next => exact .ok db.keepsWallets
  next => exact .after fun _ => .afterIf fun _ => .ok db.keepsWallets

theorem allocate_keepsWallets {round : ℕ} {sealId : Uuid} {credits : Table String ℚ}
    {expected : Option SettlementInputs} : Returns (fun p => db.KeepsWallets p.1)
      (allocate db round sealId credits expected) := by
  refine .after fun _ => ?_
  split
  next => exact .after fun _ => .ok db.keepsWallets
  next => exact .after fun _ => .after fun _ => .after fun _ => .afterIf fun _ => .ok db.keepsWallets

end Settlement

/-! ## Withdrawals -/

namespace Withdrawals

theorem event_keepsWallets {identity : Uuid} {kind actor key : String} {details : Json} :
    Returns db.KeepsWallets (event db identity kind actor details key) := by
  refine .after fun _ => ?_
  dsimp only
  split
  next => exact .after fun _ => .ok db.keepsWallets
  next => exact .ok db.keepsWallets

theorem request_keepsWallets {memberId identity : Uuid} {requestKey : String} {amount : ℤ} :
    Returns (fun p => db.KeepsWallets p.1) (request db memberId requestKey amount identity) := by
  refine .after fun _ => .after fun _ => .after fun _ => ?_
  split
  next => exact .after fun _ => .ok db.keepsWallets
  next =>
    exact .after fun _ => .after fun _ => .after fun _ => .after fun _ => .after fun _ =>
      .ok db.keepsWallets

theorem requestOperator_keepsWallets {requestKey : String} {amount reserve : ℤ}
    {network : Network} {recipient actor reason : String} {identity : Uuid} :
    Returns (fun p => db.KeepsWallets p.1)
      (requestOperator db requestKey amount network recipient reserve actor reason identity) := by
  refine .after fun _ => .after fun _ => .after fun _ => .after fun _ => .after fun _ => ?_
  refine .step Custody.bind_keepsWallets fun db₁ h => ?_
  dsimp only
  split
  next => exact .after fun _ => .step event_keepsWallets fun _ h' => .ok (h.trans h')
  next =>
    refine .after fun _ => .after fun _ => .after fun _ => .after fun _ => .after fun _ => ?_
    exact .step event_keepsWallets fun _ h' => .ok (h.trans h')

theorem approve_keepsWallets {identity : Uuid} {network : Network} {feeModel actor : String}
    {evidence : Json} :
    Returns db.KeepsWallets (approve db identity network feeModel actor evidence) := by
  refine .after fun _ => .step Custody.bind_keepsWallets fun db₁ h => .after fun row => ?_
  split
  next => exact .after fun _ => .ok h
  next => exact .after fun _ => .after fun _ => .ok h

theorem release_keepsWallets {identity : Uuid} {actor reason eventKey : String}
    {memberId : Option Uuid} : Returns (fun p => db.KeepsWallets p.1)
      (release db identity actor reason eventKey memberId) := by
  refine .after fun _ => .after fun row => .after fun _ => .after fun _ => ?_
  refine .step event_keepsWallets fun db₁ h => .ite (.ok h) ?_
  exact .after fun _ => .ok h

theorem begin_keepsWallets {identity attemptId : Uuid} {requestKey : String}
    {preflight : CustodyPreflight} {feeLimit : ℤ} {actor : String} {operatorReserve : Option ℤ}
    {around : Surroundings} {cap : Option SpendingCap} :
    Returns (fun p => db.KeepsWallets p.1) (begin db identity requestKey preflight feeLimit actor
      operatorReserve around attemptId cap) := by
  refine .after fun _ => .after fun _ => .after fun _ => ?_
  refine .step Custody.bind_keepsWallets fun db₁ h => .after fun row => ?_
  split
  next => exact .after fun _ => .ok h
  next =>
    refine .after fun _ => .after fun _ => .after fun _ => .after fun _ => .after fun _ =>
      .after fun _ => .after fun _ => .after fun _ => .after fun _ => ?_
    refine .step Custody.reserveNonce_keepsWallets fun db₂ h' => ?_
    exact .after fun _ => .after fun _ => .after fun _ => .ok (h.trans h')

theorem reconcileEvidence_keepsWallets {attemptId : Uuid} {transaction : ConfirmedTransaction}
    {transfer : Option ConfirmedTransfer} :
    Returns db.KeepsWallets (reconcileEvidence db attemptId transaction transfer) := by
  refine .after fun _ => .after fun _ => .after fun _ => .after fun _ => .after fun _ =>
    .after fun _ => .after fun _ => ?_
  exact Custody.saveTransaction_keepsWallets

/-- A paid member keeps the wallet. -/
theorem markPaid_keepsWallets {identity : Uuid} {row : Withdrawal} {event : EventId}
    {paidAt : Time} {db' : Db} (h : db.KeepsWallets db') :
    db.KeepsWallets (markPaid db' identity row event paidAt) := by
  unfold markPaid
  dsimp only
  split
  next => exact h
  next m _ =>
    split
    next => exact h
    next member hmember => exact h.trans (Db.KeepsWallets.put hmember rfl)

theorem reconcile_keepsWallets {attemptId : Uuid} {transaction : ConfirmedTransaction}
    {transfer : Option ConfirmedTransfer} : Returns (fun p => db.KeepsWallets p.1)
      (reconcile db attemptId transaction transfer) := by
  refine .step Custody.bind_keepsWallets fun db₁ h => ?_
  refine .after fun attempt => .after fun row => .after fun _ => .after fun _ => .after fun _ =>
    .after fun _ => ?_
  split
  next =>
    refine .after fun _ => .after fun _ => ?_
    exact .step Deposits.saveAny_keepsWallets fun _ h' => .ok (h.trans h')
  next =>
    refine .after fun _ => .after fun outcome => ?_
    refine .step Deposits.saveAny_keepsWallets fun db₂ h' => .after fun _ => .after fun _ => ?_
    refine .step Custody.recordPayment_keepsWallets fun db₃ h'' => ?_
    have hkeeps := (h.trans h').trans h''
    dsimp only
    split
    next => exact .ok (markPaid_keepsWallets hkeeps)
    next => exact .ok hkeeps

theorem reconcileSponsored_keepsWallets {attemptId : Uuid} {recovery : SponsoredWithdrawal}
    {actor reason : String} : Returns (fun p => db.KeepsWallets p.1)
      (reconcileSponsored db attemptId recovery actor reason) := by
  refine .after fun _ => .after fun _ => .step Custody.bind_keepsWallets fun db₁ h => ?_
  refine .after fun attempt => .after fun row => .after fun _ => .after fun _ => .after fun _ =>
    .after fun _ => .after fun _ => ?_
  split
  next =>
    refine .after fun _ => .step Custody.saveTransaction_keepsWallets fun db₂ h' => ?_
    exact .step Deposits.saveTransfer_keepsWallets fun _ h'' => .ok ((h.trans h').trans h'')
  next =>
    refine .after fun _ => .step Custody.saveTransaction_keepsWallets fun db₂ h₂ => ?_
    refine .step Deposits.saveTransfer_keepsWallets fun db₃ h₃ => .after fun _ => .after fun _ => ?_
    refine .step Custody.recordPayment_keepsWallets fun db₄ h₄ => ?_
    exact .ok (markPaid_keepsWallets (((h.trans h₂).trans h₃).trans h₄))

end Withdrawals

/-! ## Funding and openings -/

theorem Funding.record_keepsWallets {identity : String} {capture : FundingCapture} :
    Returns db.KeepsWallets (Funding.record db identity capture) := by
  refine .after fun _ => .after fun _ => .after fun _ => ?_
  dsimp only
  split
  next => exact .ok db.keepsWallets
  next => exact .ok db.keepsWallets

namespace Topups

theorem begin_keepsWallets {requestKey : String} {preflight : CustodyPreflight}
    {policyCapture : String} {amount feeLimit : ℤ} {feeModel actor : String}
    {around : Surroundings} {identity : Uuid} {cap : Option SpendingCap} :
    Returns (fun p => db.KeepsWallets p.1) (begin db requestKey preflight policyCapture amount
      feeLimit feeModel actor around identity cap) := by
  refine .after fun _ => .after fun _ => .after fun _ => .after fun _ => ?_
  refine .step Custody.bind_keepsWallets fun db₁ h => ?_
  split
  next => exact .after fun _ => .ok h
  next =>
    refine .after fun _ => .after fun _ => .after fun _ => .after fun _ => .after fun _ =>
      .after fun _ => .after fun _ => .after fun _ => .after fun _ => ?_
    refine .step Custody.reserveNonce_keepsWallets fun db₂ h' => ?_
    exact .after fun _ => .after fun _ => .after fun _ => .after fun _ => .ok (h.trans h')

theorem reconcileEvidence_keepsWallets {identity : Uuid} {transaction : ConfirmedTransaction} :
    Returns db.KeepsWallets (reconcileEvidence db identity transaction) :=
  .after fun _ => .after fun _ => Custody.saveTransaction_keepsWallets

theorem reconcile_keepsWallets {identity : Uuid} {transaction : ConfirmedTransaction}
    {transfer : Option ConfirmedTransfer} : Returns (fun p => db.KeepsWallets p.1)
      (reconcile db identity transaction transfer) := by
  refine .after fun value => .after fun _ => .step Custody.bind_keepsWallets fun db₁ h => ?_
  dsimp only
  split
  next => exact .after fun _ => .ok h
  next =>
    refine .after fun _ => .after fun _ => ?_
    refine .step Deposits.saveAny_keepsWallets fun db₂ h' => .after fun _ => ?_
    exact .step Custody.recordPayment_keepsWallets fun _ h'' => .ok ((h.trans h').trans h'')

theorem credit_keepsWallets {identity : Uuid} {value : Instructions} {captureId : String} :
    Returns (fun p => db.KeepsWallets p.1) (credit db identity value captureId) := by
  refine .after fun _ => .after fun _ => .step Custody.bind_keepsWallets fun db₁ h => ?_
  refine .after fun _ => .after fun row => ?_
  split
  next => exact .ok h
  next =>
    refine .after fun _ => .after fun _ => .after fun _ => ?_
    dsimp only
    split
    next => exact .after fun _ => .after fun _ => .ok h
    next => exact .error

end Topups

namespace ChainObserver

theorem initializeStream_keepsWallets {value : Capture} {explicitStart : Bool}
    {actor reason : String} :
    Returns db.KeepsWallets (initializeStream db value explicitStart actor reason) := by
  refine .after fun _ => .after fun _ => .after fun _ => .after fun _ => .after fun _ =>
    .after fun _ => .step Custody.bind_keepsWallets fun db₁ h => ?_
  exact .after fun _ => .after fun _ => .after fun _ => .ok h

theorem recordTransfer_keepsWallets {transfer : ConfirmedTransfer} :
    Returns db.KeepsWallets (recordTransfer db transfer) :=
  .ite (.map Deposits.receive_keepsWallets) Deposits.saveTransfer_keepsWallets

theorem advance_keepsWallets {value : Capture} : Returns db.KeepsWallets (advance db value) :=
  .after fun _ => .after fun _ => .after fun _ => .step Custody.bind_keepsWallets fun _ h =>
    .after fun _ => .ok h

end ChainObserver

theorem StarterCredit.initializeCredit_keepsWallets {captureId playerId actor : String} :
    Returns (fun p => db.KeepsWallets p.1)
      (StarterCredit.initializeCredit db captureId playerId actor) := by
  refine .after fun _ => .after fun _ => ?_
  split
  next => exact .after fun _ => .ok db.keepsWallets
  next =>
    exact .after fun _ => .after fun _ => .after fun _ => .after fun _ => .after fun _ =>
      .after fun _ => .after fun _ => .after fun _ => .after fun _ => .ok db.keepsWallets

theorem Prelaunch.creditMainnetTopup_keepsWallets {captureId : String}
    {transaction : ConfirmedTransaction} {transfer : ConfirmedTransfer} {actor reason : String} :
    Returns (fun p => db.KeepsWallets p.1)
      (Prelaunch.creditMainnetTopup db captureId transaction transfer actor reason) := by
  refine .after fun _ => .after fun _ => .after fun _ => .after fun _ => .after fun _ =>
    .after fun _ => ?_
  dsimp only
  split
  next =>
    refine .after fun _ => .step Custody.bind_keepsWallets fun db₁ h => .after fun _ => ?_
    split
    next => exact .after fun _ => .ok h
    next => exact .after fun _ => .after fun _ => .after fun _ => .after fun _ => .ok h
  next => exact .error

/-! ## Work -/

namespace WorkRequests

theorem Asks.keepsWallets {db' : Db} (h : Asks db db') : db.KeepsWallets db' := by
  obtain ⟨_, rfl⟩ := h
  exact db.keepsWallets

theorem enqueue_keepsWallets {reservationId identity : Uuid} {kind : IntentKind}
    {payload : Json} :
    Returns db.KeepsWallets (enqueue db reservationId kind payload identity) := by
  unfold enqueue
  split
  next => exact .after fun _ => .ok db.keepsWallets
  next => exact .after fun _ => .ok db.keepsWallets

theorem handOver_keepsWallets {requestId reservation intent : Uuid} {request : WorkRequest}
    {payload : Json} :
    Returns db.KeepsWallets (handOver db requestId request payload reservation intent) :=
  .step enqueue_keepsWallets fun _ h => .ok h

theorem tryQueue_keepsWallets {choose : WorkRequest → Result (Option Selection)}
    {around : Surroundings} {pilot : WorkRequest → Result Unit} {fresh : FreshIds}
    {queue : List Uuid} : Returns (fun p => db.KeepsWallets p.1)
      (tryQueue db choose around pilot fresh queue) := by
  intro p h
  rcases tryQueue_spec h with ⟨hsame, -⟩ | ⟨requestId, -, reservation, -, hattempt⟩
  · rw [hsame]
    exact db.keepsWallets
  · obtain ⟨request, selection, -, -, -, htry⟩ := attempt_spec hattempt
    obtain ⟨reserved, hreserve, hhand⟩ := tryReserve_spec htry
    exact (reserve_keepsWallets _ hreserve).trans (handOver_keepsWallets _ hhand)

theorem reserveNext_keepsWallets {blockId : String}
    {choose : WorkRequest → Result (Option Selection)} {queue : List Uuid}
    {around : Surroundings} {pilot : WorkRequest → Result Unit} {fresh : FreshIds} :
    Returns (fun p => db.KeepsWallets p.1)
      (reserveNext db blockId choose queue around pilot fresh) := by
  refine .ite (.ok db.keepsWallets) (.after fun _ => .after fun _ => .after fun _ => ?_)
  exact tryQueue_keepsWallets

end WorkRequests

theorem setCap_keepsWallets {windowSeconds : ℤ} {limits : CapLimits}
    {actor reason eventKey : String} {identity : Uuid} :
    Returns db.KeepsWallets (setCap db windowSeconds limits actor reason eventKey identity) := by
  refine .after fun _ => .after fun _ => .after fun _ => .after fun _ => .after fun _ =>
    .after fun _ => .after fun _ => ?_
  dsimp only
  split
  next => exact .after fun _ => .ok db.keepsWallets
  next => exact .after fun _ => .ok db.keepsWallets

namespace Submissions

theorem recordBinary_keepsWallets {reservationId : Uuid} {sourceUrl digest : String} :
    Returns db.KeepsWallets (recordBinary db reservationId sourceUrl digest) := by
  refine .after fun _ => .after fun _ => ?_
  split
  next => exact .after fun _ => .ok db.keepsWallets
  next => exact .after fun _ => .ok db.keepsWallets

theorem begin_keepsWallets {identity : Uuid} {preflight : Option Preflight}
    {around : Surroundings} :
    Returns (fun p => db.KeepsWallets p.1) (begin db identity preflight around) := by
  refine .after fun _ => .after fun _ => .ite ?_ ?_
  · refine .after fun _ => .after fun _ => .after fun _ => .after fun _ => ?_
    exact .step markSubmitting_keepsWallets fun _ h => .ok h
  · exact .after fun _ => .after fun _ => .ok db.keepsWallets

theorem cancelUnsent_keepsWallets {identity : Uuid} {evidence : Json} :
    Returns db.KeepsWallets (cancelUnsent db identity evidence) := by
  refine .after fun _ => .after fun _ => .ite (.ok db.keepsWallets) ?_
  exact .after fun _ => .step releaseUnstarted_keepsWallets fun _ h => .ok h

theorem receipt_keepsWallets {reservationId : Uuid} {benchmarkId : String} {evidence : Json} :
    Returns db.KeepsWallets (receipt db reservationId benchmarkId evidence) := by
  refine .after fun _ => ?_
  split
  next => exact .after fun _ => .ok db.keepsWallets
  next => exact .after fun _ => .after fun _ => .ok db.keepsWallets

theorem recordResponse_keepsWallets {identity responseId : Uuid} {response : Wire}
    {limits : Wire → Bool} :
    Returns (fun p => db.KeepsWallets p.1)
      (recordResponse db identity response responseId limits) := by
  refine .after fun _ => .after fun _ => .after fun _ => .after fun _ => .after fun _ => ?_
  dsimp only
  split
  next =>
    exact .step receipt_keepsWallets fun _ h => .ite (.ok h) (.ok h)
  next =>
    exact .step (.ok (Db.keepsWallets _)) fun _ h => .ite (.ok h) (.ok h)

theorem definitiveRejection_keepsWallets {identity : Uuid} {evidence : Json} {fee : ℤ} :
    Returns db.KeepsWallets (definitiveRejection db identity evidence fee) := by
  refine .after fun _ => .after fun _ => .after fun _ => .after fun _ => ?_
  exact .step releaseUnstarted_keepsWallets fun _ h => .ok h

theorem recoverPrecommit_keepsWallets {identity : Uuid} {precommits : List Json}
    {evidence : Json} : Returns (fun p => db.KeepsWallets p.1)
      (recoverPrecommit db identity precommits evidence) := by
  refine .after fun _ => .after fun _ => .after fun _ => .after fun _ => .after fun _ => ?_
  refine .after fun _ => ?_
  split
  next => exact .after fun _ => .step receipt_keepsWallets fun _ h => .ok h
  next => exact .ok db.keepsWallets

theorem publishAssignment_keepsWallets {reservationId : Uuid} {precommit evidence : Json}
    {snapshot : Snapshot} {artifactOrigin : String} : Returns (fun p => db.KeepsWallets p.1)
      (publishAssignment db reservationId precommit snapshot evidence artifactOrigin) := by
  refine .after fun _ => .after fun _ => .after fun _ => .after fun _ => .after fun _ =>
    .after fun _ => ?_
  exact accept_keepsWallets

theorem confirmPayload_keepsWallets {reservationId : Uuid} {kind : IntentKind}
    {evidence : Json} :
    Returns db.KeepsWallets (confirmPayload db reservationId kind evidence) := by
  refine .after fun _ => .after fun _ => .after fun _ => .after fun _ => ?_
  exact .ite (.ok db.keepsWallets) (.ok db.keepsWallets)

theorem retireUnsentPayload_keepsWallets {identity : Uuid} :
    Returns (fun p => db.KeepsWallets p.1) (retireUnsentPayload db identity) :=
  .after fun _ => .ite (.ok db.keepsWallets) (.ok db.keepsWallets)

end Submissions

namespace MemberProtocol

theorem store_keepsWallets {identity intent : Uuid} {row : Reservation} {benchmarkId : String}
    {kind : IntentKind} {payload : Json} :
    Returns db.KeepsWallets (store db identity row benchmarkId kind payload intent) := by
  refine .after fun _ => ?_
  split
  next => exact .after fun _ => .ok db.keepsWallets
  next => exact .after fun _ => .mono WorkRequests.enqueue_keepsWallets fun _ h => h

theorem results_keepsWallets {benchmarkId merkleRoot : String} {member intent : Uuid}
    {qualities : List ℤ} :
    Returns db.KeepsWallets (results db benchmarkId member merkleRoot qualities intent) :=
  .after fun _ => .after fun _ => .after fun _ => .after fun _ => store_keepsWallets

theorem sampled_keepsWallets {benchmarkId : String} {nonces : List ℕ} {evidence : Json} :
    Returns db.KeepsWallets (sampled db benchmarkId nonces evidence) := by
  refine .after fun _ => .after fun _ => .after fun _ => ?_
  dsimp only
  split
  next => exact .after fun _ => .ok db.keepsWallets
  next => exact .ok db.keepsWallets

theorem proofs_keepsWallets {blake3 : Blake3} {benchmarkId : String} {member intent : Uuid}
    {values : List Json} :
    Returns db.KeepsWallets (proofs blake3 db benchmarkId member values intent) :=
  .after fun _ => .after fun _ => .after fun _ => .after fun _ => .after fun _ => .after fun _ =>
    store_keepsWallets

end MemberProtocol

namespace Reconciliation

theorem foldl_keepsWallets {α : Type} {f : Db → α → Db} (hf : ∀ (db : Db) a, db.KeepsWallets (f db a))
    {items : List α} : ∀ {db' : Db}, db.KeepsWallets db' →
      db.KeepsWallets (items.foldl f db') := by
  induction items with
  | nil => exact id
  | cons a items ih => exact fun h => ih (h.trans (hf _ a))

theorem expireUnsentResults_keepsWallets {reservationId : Uuid} {height : ℤ} {lifetime : Json} :
    Returns (fun p => db.KeepsWallets p.1)
      (expireUnsentResults db reservationId height lifetime) := by
  refine .after fun _ => .ite (.ok db.keepsWallets) ?_
  refine .step recordOutcome_keepsWallets fun _ h => .ok (foldl_keepsWallets ?_ h)
  exact fun db _ => db.keepsWallets

theorem expireRejectedResults_keepsWallets {reservationId : Uuid} {height : ℤ}
    {lifetime : Json} {receipt : Uuid × Json} {origin : String} :
    Returns (fun p => db.KeepsWallets p.1)
      (expireRejectedResults db reservationId height lifetime receipt origin) := by
  refine .after fun _ => ?_
  dsimp only
  split
  next => exact .ok db.keepsWallets
  next =>
    refine .ite (.ok db.keepsWallets) ?_
    exact .step recordOutcome_keepsWallets fun _ h => .ok h

end Reconciliation

/-! ## Every transaction -/

variable {db' : Db} {held : Held}

theorem FundsStep.keepsWallets {a : FundsAction} (h : FundsStep held db a db')
    (ha : a ≠ .setWithdrawalWallet) : db.KeepsWallets db' := by
  cases h with
  | initializeAccounts h => exact initializeAccounts_keepsWallets _ h
  | registerVerified h => exact registerVerified_keepsWallets _ h
  | setMultiplier h => exact setMultiplier_keepsWallets _ h
  | setWithdrawalWallet => exact absurd rfl ha
  | reserve h => exact reserve_keepsWallets _ h
  | markSubmitting h => exact markSubmitting_keepsWallets _ h
  | accept h => exact accept_keepsWallets _ h
  | releaseUnstarted h => exact releaseUnstarted_keepsWallets _ h
  | releaseUnhanded h => exact releaseUnhanded_keepsWallets _ h
  | acknowledge h => exact acknowledge_keepsWallets _ h
  | recordOutcome h => exact recordOutcome_keepsWallets _ h
  | finalizeCollateral h => exact Settlement.finalizeCollateral_keepsWallets _ h
  | receive h => exact Deposits.receive_keepsWallets _ h
  | attributeReviewed h => exact Deposits.attributeReviewed_keepsWallets _ h
  | attributeReceipt h => exact Settlement.attributeReceipt_keepsWallets _ h
  | receiveNative h => exact Custody.receiveNative_keepsWallets _ h
  | receiveInternalNative h => exact receiveInternalNative_keepsWallets _ h
  | declareEarnings h => exact Settlement.declareEarnings_keepsWallets _ h
  | reimburseOperatingCost h => exact Settlement.reimburseOperatingCost_keepsWallets _ h
  | preview => exact db.keepsWallets
  | allocate _ h => exact Settlement.allocate_keepsWallets _ h
  | request h => exact Withdrawals.request_keepsWallets _ h
  | requestOperator h => exact Withdrawals.requestOperator_keepsWallets _ h
  | approve h => exact Withdrawals.approve_keepsWallets _ h
  | release h => exact Withdrawals.release_keepsWallets _ h
  | begin _ h => exact Withdrawals.begin_keepsWallets _ h
  | reconcile _ h => exact Withdrawals.reconcile_keepsWallets _ h
  | reconcileSponsored h => exact Withdrawals.reconcileSponsored_keepsWallets _ h
  | recordFunding h => exact Funding.record_keepsWallets _ h
  | beginTopup _ h => exact Topups.begin_keepsWallets _ h
  | reconcileTopup _ h => exact Topups.reconcile_keepsWallets _ h
  | creditTopup _ h => exact Topups.credit_keepsWallets _ h
  | initializeStream h => exact ChainObserver.initializeStream_keepsWallets _ h
  | recordTransfer h => exact ChainObserver.recordTransfer_keepsWallets _ h
  | advance h => exact ChainObserver.advance_keepsWallets _ h
  | initializeCredit h => exact StarterCredit.initializeCredit_keepsWallets _ h
  | creditMainnetTopup h => exact Prelaunch.creditMainnetTopup_keepsWallets _ h
  | correct => exact db.keepsWallets

theorem WorkStep.keepsWallets {a : WorkAction} (h : WorkStep db a db') :
    db.KeepsWallets db' := by
  cases h with
  | create h => exact (WorkRequests.create_asks h).keepsWallets
  | refresh h => exact (WorkRequests.refresh_asks h).keepsWallets
  | get h => exact (WorkRequests.get_asks h).keepsWallets
  | hasQueued => exact db.keepsWallets
  | setPause => exact db.keepsWallets
  | setCap h => exact setCap_keepsWallets _ h
  | reserveNext _ h => exact WorkRequests.reserveNext_keepsWallets _ h
  | recordBinary h => exact Submissions.recordBinary_keepsWallets _ h
  | begin h => exact Submissions.begin_keepsWallets _ h
  | cancelUnsent h => exact Submissions.cancelUnsent_keepsWallets _ h
  | recordResponse h => exact Submissions.recordResponse_keepsWallets _ h
  | definitiveRejection h => exact Submissions.definitiveRejection_keepsWallets _ h
  | recoverPrecommit h => exact Submissions.recoverPrecommit_keepsWallets _ h
  | publishAssignment h => exact Submissions.publishAssignment_keepsWallets _ h
  | confirmPayload h => exact Submissions.confirmPayload_keepsWallets _ h
  | retireUnsentPayload h => exact Submissions.retireUnsentPayload_keepsWallets _ h
  | results h => exact MemberProtocol.results_keepsWallets _ h
  | sampled h => exact MemberProtocol.sampled_keepsWallets _ h
  | proofs h => exact MemberProtocol.proofs_keepsWallets _ h
  | expireUnsentResults h => exact Reconciliation.expireUnsentResults_keepsWallets _ h
  | expireRejectedResults h => exact Reconciliation.expireRejectedResults_keepsWallets _ h

namespace Sys

variable {s s' : Sys}

theorem HoldStep.keepsWallets {a : HoldAction} (h : HoldStep s a s') :
    s.db.KeepsWallets s'.db := by
  cases h with
  | reconcileEvidence h => exact Withdrawals.reconcileEvidence_keepsWallets _ h
  | topupEvidence h => exact Topups.reconcileEvidence_keepsWallets _ h
  | _ => exact Db.keepsWallets _

/-- Only `setWithdrawalWallet` writes the withdrawal wallet of a member who is there. -/
theorem Step.keepsWallets {a : Action} (h : Step s a s')
    (ha : a ≠ .funds .setWithdrawalWallet) : s.db.KeepsWallets s'.db := by
  cases h with
  | funds h => exact h.keepsWallets fun heq => ha (congrArg Action.funds heq)
  | report h =>
      obtain ⟨_, rfl⟩ := h.frame
      exact Db.keepsWallets _
  | observe h =>
      obtain ⟨_, rfl⟩ := h.frame
      exact Db.keepsWallets _
  | work h => exact h.keepsWallets
  | hold h => exact HoldStep.keepsWallets h
  | tick => exact Db.keepsWallets _

end Sys

end TigPool
