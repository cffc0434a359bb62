/-
# `TigPool.Withdrawals` — member and operator withdrawals, one payment lifecycle

    requested ──approve──▶ approved ──begin──▶ uncertain ──reconcile, reconcile_sponsored──▶ paid
        │                    │   ▲                │
        └──────release───────┘   └──reconcile─────┘  (failed or cancelled attempt)
               ▼
       rejected, cancelled

`reconcile` runs in two transactions: `reconcileEvidence` saves the transaction
so that valid evidence survives even if the rest fails, `reconcile` settles the
attempt.
-/
import TigPool.Custody

namespace TigPool

open Basis

/-- Still on its way: requested, approved, or possibly sent. -/
def WithdrawalState.isPending : WithdrawalState → Bool
  | .requested | .approved | .uncertain => true
  | .paid | .rejected | .cancelled => false

def AttemptOutcome.name : AttemptOutcome → String
  | .paid => "paid"
  | .failed => "failed"
  | .cancelled => "cancelled"

namespace Withdrawals

/-- The account that holds a pending withdrawal. -/
abbrev pending (identity : Uuid) : AccountId := .withdrawal identity

/-- The account that holds the gas budget of an attempt. -/
abbrev gasHold (identity : Uuid) : AccountId := .withdrawalGas identity

def feeModels : List String := ["ethereum", "op-isthmus", "op-jovian"]

def request (db : Db) (memberId : Uuid) (requestKey : String) (amount : ℤ) (identity : Uuid) :
    Result (Db × Uuid) := do
  let amount ← units amount true
  require (requestKey ≠ "" ∧ requestKey.length ≤ 128)
    (.funds "withdrawal requires a bounded idempotency key")
  let member ← memberLock db memberId
  match db.funds.withdrawals.find fun _ w => w.memberId = some memberId ∧
        w.requestKey = requestKey with
  | some (existing, row) =>
      require (row.amount = amount)
        (.conflict "withdrawal key was reused with a different amount")
      return (db, existing)
  | none =>
      require (member.lastPaidAt.all fun paid => paid + days 7 ≤ db.clock)
        (.conflict "seven days must pass after the previous successful withdrawal")
      require (db.funds.withdrawals.any
          (fun _ w => w.memberId = some memberId ∧ w.state.isPending) = false)
        (.conflict "member already has a pending withdrawal")
      let ledger ← db.funds.ledger.account (pending identity) .withdrawal
      let ledger ← ledger.post (.withdrawalReserve identity) "withdrawal_reservation"
        [(available memberId, -amount), (pending identity, amount)]
      require (identity ∉ db.funds.withdrawals) (.integrity "withdrawals_pkey")
      let row : Withdrawal :=
        { memberId := some memberId, kind := .member, requestKey, amount,
          recipient := member.withdrawalWallet, operatorReserve := none, createdAt := db.clock }
      return ((db.withLedger ledger).putWithdrawal identity row, identity)

def locked (db : Db) (identity : Uuid) : Result Withdrawal :=
  fetch (db.funds.withdrawals.lookup identity) (.funds "unknown withdrawal request")

/-- Remember an operator's or owner's action under its own key. -/
def event (db : Db) (identity : Uuid) (kind actor : String) (details : Json) (key : String) :
    Result Db := do
  require (actor ≠ "" ∧ key ≠ "") (.funds "withdrawal action requires actor and event key")
  let row : WithdrawalEvent := { withdrawalId := identity, kind, actor, details }
  match db.work.withdrawalEvents.lookup key with
  | some previous =>
      require (previous = row)
        (.conflict "withdrawal event key was reused with different inputs")
      return db
  | none =>
      return { db with work := { db.work with
        withdrawalEvents := AList.insert key row db.work.withdrawalEvents } }

/-- Freeze the configured destination and retain the operator's running budget. -/
def requestOperator (db : Db) (requestKey : String) (amount : ℤ) (network : Network)
    (recipient : String) (reserve : ℤ) (actor reason : String) (identity : Uuid) :
    Result (Db × Uuid) := do
  let amount ← units amount true
  let reserve ← units reserve
  let recipient ← address recipient
  require (recipient ≠ network.custody)
    (.funds "operator income wallet must differ from pool custody")
  require (requestKey ≠ "" ∧ requestKey.length ≤ 128 ∧ actor ≠ "" ∧ reason ≠ "")
    (.funds "operator withdrawal requires a bounded key, actor and reason")
  let db ← Custody.bind db network
  let details : Json := .obj [("reason", .str reason), ("recipient", .str recipient),
    ("reserve", .int reserve)]
  match db.funds.withdrawals.find fun _ w => w.kind = .operator ∧ w.requestKey = requestKey with
  | some (existing, row) =>
      require (row.amount = amount ∧ row.recipient = recipient ∧ row.operatorReserve = some reserve)
        (.conflict "operator withdrawal request key was reused with different inputs")
      let db ← event db existing "requested" actor details ("operator-request:" ++ existing)
      return (db, existing)
  | none =>
      require (db.funds.withdrawals.any (fun _ w => w.kind = .operator ∧ w.state.isPending) = false)
        (.conflict "operator already has a pending withdrawal")
      let ledger ← db.funds.ledger.account (pending identity) .withdrawal
      require ((amount : ℤ) + reserve ≤ ledger.balance (.operator .custody .TIG))
        (.insufficientFunds
          "operator funds must cover the withdrawal and retained operating reserve")
      let ledger ← ledger.post (.withdrawalReserve identity) "operator_withdrawal_reservation"
        [(.operator .custody .TIG, -amount), (pending identity, amount)]
        (.obj [("actor", .str actor), ("reason", .str reason), ("recipient", .str recipient),
          ("reserve", .int reserve)])
      require (identity ∉ db.funds.withdrawals) (.integrity "withdrawals_pkey")
      let row : Withdrawal :=
        { memberId := none, kind := .operator, requestKey, amount, recipient,
          operatorReserve := some reserve, createdAt := db.clock }
      let db ← event ((db.withLedger ledger).putWithdrawal identity row) identity "requested" actor
        details ("operator-request:" ++ identity)
      return (db, identity)

def approve (db : Db) (identity : Uuid) (network : Network) (feeModel actor : String)
    (evidence : Json) : Result Db := do
  require (feeModel ∈ feeModels ∧ actor ≠ "" ∧ evidence.truthy ∧ network.requireFinalized)
    (.funds "review requires a verified fee model, operator and evidence")
  let db ← Custody.bind db network
  let row ← locked db identity
  match row.review with
  | some previous =>
      require (previous.chainId = network.chainId ∧ previous.token = network.token ∧
          previous.sender = network.custody ∧ previous.feeModel = feeModel ∧
          previous.confirmations = network.confirmations)
        (.conflict "withdrawal payment route is already frozen")
      return db
  | none =>
      require (row.state = .requested) (.conflict "only a pending request can be approved")
      require (row.recipient ≠ network.custody)
        (.conflict "a withdrawal cannot send back to the pool custody wallet")
      let review : WithdrawalReview :=
        { chainId := network.chainId, token := network.token, sender := network.custody, feeModel,
          confirmations := network.confirmations, actor, evidence }
      return db.putWithdrawal identity { row with review := some review, state := .approved }

/-- The account a withdrawal draws on. -/
def source (row : Withdrawal) : AccountId :=
  match row.memberId with
  | some memberId => available memberId
  | none => .operator .custody .TIG

/-- Reject as operator, or cancel as owner, only before any unresolved send. -/
def release (db : Db) (identity : Uuid) (actor reason eventKey : String)
    (memberId : Option Uuid) : Result (Db × Uuid) := do
  require (reason ≠ "") (.funds "withdrawal release requires a reason")
  let state : WithdrawalState := if memberId.isSome then .cancelled else .rejected
  let row ← locked db identity
  require (memberId = none ∨ row.memberId = memberId)
    (.funds "withdrawal belongs to another member")
  require (row.state = .requested ∨ row.state = .approved ∨ row.state = state)
    (.conflict "potentially sent or paid withdrawals cannot be released")
  let scopedKey := memberId.elim ("operator:" ++ eventKey) fun m => "member:" ++ m ++ ":" ++ eventKey
  let stateName := if memberId.isSome then "cancelled" else "rejected"
  let db ← event db identity stateName actor (.obj [("reason", .str reason)]) scopedKey
  if row.state = state then
    return (db, identity)
  else
    let ledger ← db.funds.ledger.post (.withdrawalRelease identity) "withdrawal_release"
      [(pending identity, -row.amount), (source row, row.amount)]
      (.obj [("actor", .str actor), ("reason", .str reason), ("state", .str stateName)])
    return ((db.withLedger ledger).putWithdrawal identity { row with state }, identity)

/-- Commit the nonce and operator gas budget for the reserved withdrawal, under the cap
that the transaction has read. -/
def begin (db : Db) (identity : Uuid) (requestKey : String) (preflight : CustodyPreflight)
    (feeLimit : ℤ) (actor : String) (operatorReserve : Option ℤ) (around : Surroundings)
    (attemptId : Uuid) (cap : Option SpendingCap) : Result (Db × Uuid) := do
  let feeLimit ← units feeLimit true
  let retainedNow ← operatorReserve.elim (.ok 0) fun reserve => units reserve
  require (requestKey ≠ "" ∧ requestKey.length ≤ 128 ∧ actor ≠ "")
    (.funds "sending requires a verified custody preflight, bounded key and actor")
  let db ← Custody.bind db preflight.network
  let row ← locked db identity
  match db.funds.withdrawalAttempts.find fun _ a => a.withdrawalId = identity ∧
        a.requestKey = requestKey with
  | some (existing, attempt) =>
      require (attempt.feeLimit = feeLimit)
        (.conflict "send attempt key was reused with a different fee limit")
      return (db, existing)
  | none =>
      let age := around.hostClock - preflight.checkedAt
      require (-seconds 5 ≤ age ∧ age ≤ seconds 20)
        (.conflict "custody preflight is stale; refresh before starting an attempt")
      require (row.state = .approved)
        (.conflict "withdrawal is not approved for a new send attempt")
      require (row.kind = .member ∨
          (max (row.operatorReserve.getD 0) retainedNow : ℤ)
            ≤ db.funds.ledger.balance (.operator .custody .TIG))
        (.insufficientFunds "restore the operator operating reserve before preparing payment")
      let review ← fetch row.review
        (.conflict "withdrawal network or custody route differs from its approval")
      require (review.chainId = preflight.network.chainId ∧ review.token = preflight.network.token ∧
          review.sender = preflight.network.custody)
        (.conflict "withdrawal network or custody route differs from its approval")
      require (preflight.network.requireFinalized ∧
          review.confirmations ≤ preflight.network.confirmations)
        (.conflict "withdrawal confirmation policy cannot be weakened")
      require (db.funds.ledger.backing .TIG = preflight.tokenBalance ∧
          db.funds.ledger.backing .NATIVE = preflight.nativeBalance)
        (.conflict "confirmed wallet balances do not reconcile to all recorded custody funds")
      require (¬ around.custodyInitialized ∨ around.custodyReady)
        (.conflict "custody observer requires reconciliation before another payment attempt")
      let _ ← Spending.checkGas db feeLimit cap
      let db ← Custody.reserveNonce db attemptId preflight.network preflight.nonce .withdrawal
      let ledger ← db.funds.ledger.account (gasHold attemptId) .operatorCommitment .NATIVE
      let ledger ← ledger.post (.attemptGas attemptId) "operator_withdrawal_fee_reservation"
        [(.operator .custody .NATIVE, -feeLimit), (gasHold attemptId, feeLimit)]
        (.obj [("actor", .str actor), ("withdrawal_id", .str identity)])
      require (attemptId ∉ db.funds.withdrawalAttempts) (.integrity "withdrawal_attempts_pkey")
      let attempt : WithdrawalAttempt :=
        { withdrawalId := identity, requestKey, chainId := review.chainId, sender := review.sender,
          nonce := preflight.nonce, feeLimit, actor, preflightBlock := preflight.blockNumber,
          sentAt := db.clock }
      let db := (db.withLedger ledger).putAttempt attemptId attempt
      return (db.putWithdrawal identity { row with state := .uncertain }, attemptId)

/-- Neither the transaction nor the transfer may come from a weaker finality
policy than the one the review froze. -/
def keepsFinality (review : WithdrawalReview) (transaction : ConfirmedTransaction)
    (transfer : Option ConfirmedTransfer) : Bool :=
  transaction.network.requireFinalized ∧ review.confirmations ≤ transaction.network.confirmations ∧
    transfer.all fun t => t.network.requireFinalized ∧ review.confirmations ≤ t.network.confirmations

/-- The first transaction of `reconcile`: preserve valid chain evidence. -/
def reconcileEvidence (db : Db) (attemptId : Uuid) (transaction : ConfirmedTransaction)
    (transfer : Option ConfirmedTransfer) : Result Db := do
  let initial ← fetch (db.funds.withdrawalAttempts.lookup attemptId)
    (.funds "unknown withdrawal attempt")
  require (transaction.network.chainId = initial.chainId ∧ transaction.sender = initial.sender ∧
      transaction.nonce = initial.nonce)
    (.conflict "transaction does not match the frozen chain, sender or nonce")
  let row ← locked db initial.withdrawalId
  let review ← fetch row.review (.malformed "withdrawal has no review")
  require (transaction.feeModel = review.feeModel)
    (.conflict "transaction uses a different fee rule from its frozen approval")
  require (keepsFinality review transaction transfer = true)
    (.conflict "withdrawal confirmation policy cannot be weakened")
  require (initial.sentAt ≤ transaction.blockTimestamp + seconds 5)
    (.conflict "transaction predates the recorded send attempt")
  Custody.saveTransaction db transaction

/-- A finalized empty self-send consumes the reserved nonce and nothing else. -/
def isEmptySelfSend (transaction : ConfirmedTransaction) : Bool :=
  transaction.recipient = some transaction.sender ∧ transaction.value = 0 ∧
    ((transaction.evidence.get? "transaction").bind (·.get? "input") = some (.str "0x") ∨
      (transaction.evidence.get? "transaction").bind (·.get? "input") = some (.str "")) ∧
    ((transaction.evidence.get? "receipt").bind (·.get? "logs")).elim false (¬ ·.truthy)

/-- What a finalized transaction with the attempt's nonce means for it. -/
def attemptOutcome (review : WithdrawalReview) (row : Withdrawal)
    (transaction : ConfirmedTransaction) (transfer : Option ConfirmedTransfer) :
    Result AttemptOutcome :=
  if ¬ transaction.successful then do
    require (transfer = none)
      (.conflict "failed transaction cannot contain a successful withdrawal")
    return .failed
  else match transfer with
    | some t => do
        require (t.network.chainId = review.chainId ∧ t.network.token = review.token ∧
            t.sender = review.sender ∧ t.recipient = row.recipient ∧ t.amount = row.amount ∧
            t.txHash = transaction.txHash ∧ t.blockHash = transaction.blockHash)
          (.conflict "verified transfer does not match the full frozen withdrawal")
        return .paid
    | none => do
        require (isEmptySelfSend transaction = true)
          (.conflict "successful unmatched transaction needs explicit wallet reconciliation")
        return .cancelled

/-- A paid withdrawal, and the time it was paid. -/
def markPaid (db : Db) (identity : Uuid) (row : Withdrawal) (event : EventId) (paidAt : Time) : Db :=
  let db := db.putWithdrawal identity { row with state := .paid, paidEvent := some event }
  match row.memberId with
  | none => db
  | some memberId =>
      match db.funds.members.lookup memberId with
      | none => db
      | some member => db.putMember memberId { member with lastPaidAt := some paidAt }

/-- The second transaction of `reconcile`: pay, or prove the nonce cannot pay later. -/
def reconcile (db : Db) (attemptId : Uuid) (transaction : ConfirmedTransaction)
    (transfer : Option ConfirmedTransfer) : Result (Db × AttemptOutcome) := do
  let db ← Custody.bind db transaction.network
  let attempt ← fetch (db.funds.withdrawalAttempts.lookup attemptId)
    (.funds "unknown withdrawal attempt")
  let row ← locked db attempt.withdrawalId
  let review ← fetch row.review (.malformed "withdrawal has no review")
  require (transaction.network.chainId = attempt.chainId ∧ transaction.sender = attempt.sender ∧
      transaction.nonce = attempt.nonce ∧ transaction.feeModel = review.feeModel)
    (.conflict "transaction does not match the frozen chain, sender, nonce or fee rule")
  require (keepsFinality review transaction transfer = true)
    (.conflict "withdrawal confirmation policy cannot be weakened")
  require (attempt.preflightBlock < transaction.blockNumber)
    (.conflict "transaction predates the recorded send attempt")
  match attempt.outcome with
  | some previous =>
      require (previous.txHash = transaction.txHash)
        (.conflict "attempt already has a different final transaction")
      require (previous.outcome ≠ .paid ∨
          (transfer.isSome ∧ row.paidEvent = transfer.map (·.eventId)))
        (.conflict "payment replay must identify the same exact transfer event")
      let db ← transfer.elim (.ok db) fun t => Deposits.saveTransfer db t
      return (db, previous.outcome)
  | none =>
      require (row.state = .uncertain) (.conflict "withdrawal has no unresolved send to reconcile")
      let outcome ← attemptOutcome review row transaction transfer
      let db ← transfer.elim (.ok db) fun t => Deposits.saveTransfer db t
      require (transfer.all fun t => db.funds.withdrawals.any
          (fun _ w => w.paidEvent = some t.eventId) = false)
        (.conflict "token event already paid another withdrawal")
      let gas : Movements AccountId :=
        [(gasHold attemptId, -attempt.feeLimit),
         (.operator .custody .NATIVE, attempt.feeLimit - transaction.fee),
         (.external .custody .NATIVE, transaction.fee)]
      let cash : Movements AccountId := if outcome = .paid then
          [(pending attempt.withdrawalId, -row.amount), (.external .custody .TIG, row.amount)]
        else []
      let ledger ← db.funds.ledger.post (.attemptReconcile attemptId) ("withdrawal_" ++ outcome.name)
        (gas ++ cash)
        (.obj [("attempt_id", .str attemptId), ("chain_id", .int transaction.network.chainId),
          ("fee", .int transaction.fee), ("fee_model", .str transaction.feeModel),
          ("transfer_event", transfer.elim .null (·.eventId.json)),
          ("tx_hash", .str transaction.txHash), ("withdrawal_id", .str attempt.withdrawalId)])
      let db ← Custody.recordPayment (db.withLedger ledger) attemptId transaction
        (transfer.map (·.eventId)) (.attemptReconcile attemptId)
      let result : WithdrawalAttemptOutcome :=
        { chainId := transaction.network.chainId, txHash := transaction.txHash, outcome,
          fee := transaction.fee }
      let db := db.putAttempt attemptId { attempt with outcome := some result }
      match outcome, transfer with
      | .paid, some t =>
          return (markPaid db attempt.withdrawalId row t.eventId transaction.blockTimestamp, outcome)
      | _, _ =>
          return (db.putWithdrawal attempt.withdrawalId { row with state := .approved }, outcome)

/-- Account once for a verified initial EIP-7702 payment without a resend. -/
def reconcileSponsored (db : Db) (attemptId : Uuid) (recovery : SponsoredWithdrawal)
    (actor reason : String) : Result (Db × AttemptOutcome) := do
  require (actor ≠ "" ∧ reason ≠ "")
    (.funds "verified sponsored recovery and operator review required")
  let tx := recovery.transaction
  let transfer := recovery.transfer
  require (tx.successful ∧ tx.sender ≠ tx.network.custody)
    (.conflict "recovery must be a successful externally sponsored transaction")
  let db ← Custody.bind db tx.network
  let attempt ← fetch (db.funds.withdrawalAttempts.lookup attemptId)
    (.funds "unknown withdrawal attempt")
  let row ← locked db attempt.withdrawalId
  let review ← fetch row.review (.malformed "withdrawal has no review")
  require (attempt.chainId = tx.network.chainId ∧ attempt.sender = tx.network.custody ∧
      attempt.nonce = recovery.custodyNonce ∧ review.token = tx.network.token ∧
      review.feeModel = tx.feeModel)
    (.conflict "sponsored recovery differs from the frozen custody route")
  require (tx.network.requireFinalized ∧ review.confirmations ≤ tx.network.confirmations ∧
      transfer.network = tx.network)
    (.conflict "sponsored recovery cannot weaken finality or change network")
  require (attempt.sentAt ≤ tx.blockTimestamp + seconds 5 ∧ attempt.preflightBlock < tx.blockNumber)
    (.conflict "sponsored payment predates the prepared attempt")
  require (transfer.sender = attempt.sender ∧ transfer.recipient = row.recipient ∧
      transfer.amount = row.amount ∧ transfer.txHash = tx.txHash ∧
      transfer.blockHash = tx.blockHash)
    (.conflict "sponsored token event differs from the full frozen withdrawal")
  match attempt.outcome with
  | some previous =>
      let authorization := (db.funds.custodySends.lookup attemptId).bind (·.authorization)
      require (previous.txHash = tx.txHash ∧ previous.outcome = .paid ∧
          row.paidEvent = some transfer.eventId ∧ previous.fee = 0 ∧
          authorization.map (·.delegate) = some recovery.delegate)
        (.conflict "attempt already has different financial attribution")
      let db ← Custody.saveTransaction db tx
      let db ← Deposits.saveTransfer db transfer
      return (db, previous.outcome)
  | none =>
      require (row.state = .uncertain)
        (.conflict "withdrawal has no unresolved payment to recover")
      let db ← Custody.saveTransaction db tx
      let db ← Deposits.saveTransfer db transfer
      require (db.funds.withdrawals.any (fun _ w => w.paidEvent = some transfer.eventId) = false)
        (.conflict "token event already paid another withdrawal")
      let ledger ← db.funds.ledger.post (.attemptReconcile attemptId) "withdrawal_paid"
        [(gasHold attemptId, -attempt.feeLimit), (.operator .custody .NATIVE, attempt.feeLimit),
         (pending attempt.withdrawalId, -row.amount), (.external .custody .TIG, row.amount)]
        (.obj [("actor", .str actor), ("attempt_id", .str attemptId),
          ("chain_id", .int tx.network.chainId), ("fee", .int 0), ("fee_model", .str tx.feeModel),
          ("reason", .str reason), ("relayer_fee", .int tx.fee),
          ("route", .str "initial-eip7702-sponsored"), ("transfer_event", transfer.eventId.json),
          ("tx_hash", .str tx.txHash), ("withdrawal_id", .str attempt.withdrawalId)])
      let db ← Custody.recordPayment (db.withLedger ledger) attemptId tx (some transfer.eventId)
        (.attemptReconcile attemptId) (some { authorization := recovery, actor, reason })
      let result : WithdrawalAttemptOutcome :=
        { chainId := tx.network.chainId, txHash := tx.txHash, outcome := .paid, fee := 0 }
      let db := db.putAttempt attemptId { attempt with outcome := some result }
      return (markPaid db attempt.withdrawalId row transfer.eventId tx.blockTimestamp, .paid)

end Withdrawals

end TigPool
