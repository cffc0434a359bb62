/-
# `TigPool.Custody` — verified custody identity, transfers and payments

Facts about the chain enter here, each once: a transfer by its event, a
transaction by its hash, and a custody nonce by the send that reserved it.
-/
import TigPool.Benchmarks

namespace TigPool

open Basis

/-! ## Custody -/

namespace Custody

def bind (db : Db) (network : Network) : Result Db := do
  require (db.funds.protocolIdentity.all (· = network.custody))
    (.conflict "custody wallet differs from the bound protocol funding account")
  let values : CustodyIdentity :=
    { chainId := network.chainId, token := network.token, wallet := network.custody,
      decimals := network.decimals }
  match db.funds.custodyIdentity with
  | some existing =>
      require (existing = values)
        (.conflict "configured chain, token or wallet differs from the ledger custody identity")
      return db
  | none =>
      require (db.funds.transfers.any (fun event row => event.chainId ≠ network.chainId ∨
          event.token ≠ network.token ∨
          (row.sender ≠ network.custody ∧ row.recipient ≠ network.custody)) = false)
        (.conflict "existing transfer history differs from this custody identity")
      return { db with funds := { db.funds with custodyIdentity := some values } }

/-- The row a confirmed transaction is saved as. -/
def transactionRow (transaction : ConfirmedTransaction) : ChainTransaction where
  sender := transaction.sender
  recipient := transaction.recipient
  nonce := transaction.nonce
  successful := transaction.successful
  value := transaction.value
  fee := transaction.fee
  feeModel := transaction.feeModel
  blockNumber := transaction.blockNumber
  blockHash := transaction.blockHash
  blockTimestamp := transaction.blockTimestamp
  evidence := transaction.evidence

def saveTransaction (db : Db) (transaction : ConfirmedTransaction) : Result Db := do
  let db ← bind db transaction.network
  let key := (transaction.network.chainId, transaction.txHash)
  match db.funds.chainTransactions.lookup key with
  | some previous =>
      -- The evidence may differ; the facts may not.
      require ({ previous with evidence := transaction.evidence } = transactionRow transaction)
        (.conflict "confirmed transaction facts changed; reconciliation required")
      return db
  | none =>
      require (db.funds.chainTransactions.any (fun k row => k.1 = transaction.network.chainId ∧
          row.sender = transaction.sender ∧ row.nonce = transaction.nonce) = false)
        (.conflict "a different finalized transaction already consumed this sender nonce")
      return { db with funds := { db.funds with
        chainTransactions :=
          AList.insert key (transactionRow transaction) db.funds.chainTransactions } }

def receiveNative (db : Db) (transaction : ConfirmedTransaction) : Result Db := do
  require (transaction.successful ∧ 0 < transaction.value ∧
      transaction.recipient = some transaction.network.custody ∧
      transaction.sender ≠ transaction.network.custody)
    (.funds "operator native funding requires a verified incoming direct transfer")
  let db ← bind db transaction.network
  let db ← saveTransaction db transaction
  let ledger ← db.funds.ledger.post
    (.nativeReceipt transaction.network.chainId transaction.txHash) "operator_native_funding"
    [(.external .custody .NATIVE, -transaction.value),
     (.operator .custody .NATIVE, transaction.value)]
    (.obj [("chain_id", .int transaction.network.chainId), ("sender", .str transaction.sender),
      ("tx_hash", .str transaction.txHash)])
  return db.withLedger ledger

/-- All send purposes share this fence. -/
def reserveNonce (db : Db) (identity : Uuid) (network : Network) (nonce : ℕ) (kind : SendKind) :
    Result Db := do
  let db ← bind db network
  require (db.funds.custodySends.any (fun _ send => send.chainId = network.chainId ∧
      send.sender = network.custody ∧ send.nonce = nonce) = false)
    (.conflict "custody nonce is already reserved by another send attempt")
  require (identity ∉ db.funds.custodySends) (.integrity "custody_sends_pkey")
  return db.putSend identity
    { chainId := network.chainId, sender := network.custody, nonce, kind }

/-- How a reviewed sponsored payment explains a custody send. -/
structure Sponsorship where
  authorization : SponsoredWithdrawal
  actor : String
  reason : String

/-- One verified finalized transaction can explain only one custody send. -/
def recordPayment (db : Db) (identity : Uuid) (transaction : ConfirmedTransaction)
    (transferEvent : Option EventId) (journal : EventKey)
    (sponsorship : Option Sponsorship := none) : Result Db := do
  require (sponsorship.all fun s => s.authorization.transaction = transaction ∧
      some s.authorization.transfer.eventId = transferEvent ∧ s.actor ≠ "" ∧ s.reason ≠ "")
    (.funds "verified sponsored payment and explicit operator review required")
  let sender := sponsorship.elim transaction.sender fun _ => transaction.network.custody
  let nonce := sponsorship.elim transaction.nonce (·.authorization.custodyNonce)
  let fee := sponsorship.elim transaction.fee fun _ => 0
  let route ← fetch (db.funds.custodySends.lookup identity)
    (.conflict "payment does not match the shared custody nonce reservation")
  require (route.chainId = transaction.network.chainId ∧ route.sender = sender ∧
      route.nonce = nonce)
    (.conflict "payment does not match the shared custody nonce reservation")
  let payment : CustodyPayment :=
    { chainId := transaction.network.chainId, txHash := transaction.txHash, transferEvent, fee,
      journal }
  match db.funds.custodySends.find fun id send => send.payment.any fun p =>
      id = identity ∨ (p.chainId = transaction.network.chainId ∧ p.txHash = transaction.txHash) with
  | some (oldId, old) =>
      require (oldId = identity ∧ old.payment.map (·.txHash) = some transaction.txHash ∧
          old.payment.map (·.transferEvent) = some transferEvent ∧
          old.payment.map (·.fee) = some fee ∧ old.payment.map (·.journal) = some journal)
        (.conflict "custody transaction already has a different financial attribution")
      return db
  | none =>
      let authorization : Option AuthorizationPayment := sponsorship.map fun s =>
        { chainId := transaction.network.chainId, txHash := transaction.txHash, authority := sender,
          nonce, delegate := s.authorization.delegate, actor := s.actor, reason := s.reason }
      require (authorization = none ∨ db.funds.custodySends.any (fun _ send =>
          send.authorization.any fun a => a.chainId = transaction.network.chainId ∧
            (a.txHash = transaction.txHash ∨ (a.authority = sender ∧ a.nonce = nonce))) = false)
        (.integrity "custody_authorization_payments")
      require (transferEvent = none ∨ db.funds.custodySends.any (fun _ send =>
          send.payment.any fun p => p.transferEvent = transferEvent) = false)
        (.integrity "custody_payments_transfer_event_key")
      require ((transaction.network.chainId, transaction.txHash) ∈ db.funds.chainTransactions)
        (.integrity "custody_payments_chain_id_tx_hash_fkey")
      return db.putSend identity { route with payment := some payment, authorization }

end Custody

/-! ## Deposits -/

namespace Deposits

/-- The row a confirmed transfer is saved as. -/
def transferRow (transfer : ConfirmedTransfer) : Transfer where
  blockNumber := transfer.blockNumber
  blockHash := transfer.blockHash
  blockTimestamp := transfer.blockTimestamp
  sender := transfer.sender
  recipient := transfer.recipient
  amount := transfer.amount
  evidence := transfer.evidence

/-- Does the row record exactly the facts of the transfer? -/
def sameFacts (row : Transfer) (transfer : ConfirmedTransfer) : Prop :=
  row.blockNumber = transfer.blockNumber ∧ row.blockHash = transfer.blockHash ∧
    row.blockTimestamp = transfer.blockTimestamp ∧ row.sender = transfer.sender ∧
    row.recipient = transfer.recipient ∧ row.amount = transfer.amount

instance (row : Transfer) (transfer : ConfirmedTransfer) : Decidable (sameFacts row transfer) :=
  inferInstanceAs (Decidable (_ ∧ _))

def saveTransfer (db : Db) (transfer : ConfirmedTransfer) : Result Db := do
  let db ← Custody.bind db transfer.network
  match db.funds.transfers.lookup transfer.eventId with
  | some previous =>
      require (sameFacts previous transfer)
        (.conflict "a previously recorded transfer changed; reconciliation required")
      return db
  | none => return db.putTransfer transfer.eventId (transferRow transfer)

/-- Give an observed receipt to one destination, once. -/
def attributeTransfer (db : Db) (transfer : ConfirmedTransfer) (destination : AccountId)
    (actor : String)
    (evidence : Json) : Result Db := do
  let row ← fetch (db.funds.transfers.lookup transfer.eventId)
    (.integrity "transfer_attributions_event_id_fkey")
  match row.attribution with
  | some previous =>
      require (previous.destination = destination)
        (.conflict "deposit has already been attributed elsewhere")
      return db
  | none =>
      let ledger ← if transfer.amount ≠ 0 then
          db.funds.ledger.post (.attribution transfer.eventId) "deposit_attribution"
            [(.unattributed, -transfer.amount), (destination, transfer.amount)]
            (.obj [("actor", .str actor), ("evidence", evidence)])
        else .ok db.funds.ledger
      require (destination ∈ ledger.accounts) (.integrity "transfer_attributions_destination_fkey")
      return (db.withLedger ledger).putTransfer transfer.eventId
        { row with attribution := some { destination, actor, evidence } }

/-- Credit a confirmed incoming transfer; a known sender's money is theirs. -/
def receive (db : Db) (transfer : ConfirmedTransfer) : Result (Db × AccountId) := do
  require (transfer.recipient = transfer.network.custody ∧
      transfer.sender ≠ transfer.network.custody)
    (.funds "expected an external incoming transfer to custody")
  let db ← saveTransfer db transfer
  let ledger ← if transfer.amount ≠ 0 then
      db.funds.ledger.post (.receipt transfer.eventId) "custody_receipt"
        [(.external .custody .TIG, -transfer.amount), (.unattributed, transfer.amount)]
    else .ok db.funds.ledger
  let db := db.withLedger ledger
  match (db.funds.transfers.lookup transfer.eventId).bind (·.attribution) with
  | some attributed => return (db, attributed.destination)
  | none =>
      match db.funds.members.find fun _ row => row.wallet = transfer.sender with
      | some (memberId, _) =>
          let db ← attributeTransfer db transfer (available memberId) "verified-source"
            (.obj [("wallet", .str transfer.sender)])
          return (db, available memberId)
      | none => return (db, .unattributed)

/-- Who an operator's investigation found a receipt to belong to. -/
inductive ReviewedDestination where
  | member (memberId : Uuid)
  | operator
deriving DecidableEq

/-- Operator-only resolution of an already observed, unattributed receipt. -/
def attributeReviewed (db : Db) (transfer : ConfirmedTransfer) (actor : String) (evidence : Json)
    (destination : ReviewedDestination) : Result Db := do
  require (actor ≠ "" ∧ evidence.truthy)
    (.funds "choose one verified attribution destination and supply operator evidence")
  require (transfer.recipient = transfer.network.custody ∧
      transfer.sender ≠ transfer.network.custody) (.funds "expected incoming custody transfer")
  let db ← Custody.bind db transfer.network
  require (transfer.eventId ∈ db.funds.transfers)
    (.funds "receipt must be observed before operator attribution")
  let db ← saveTransfer db transfer
  match destination with
  | .member memberId => do
      let _ ← memberLock db memberId
      attributeTransfer db transfer (available memberId) actor evidence
  | .operator => attributeTransfer db transfer (.operator .custody .TIG) actor evidence

end Deposits

/-! ## Internal native receipts -/

/-- A verified positive-value call from outside custody into custody. -/
structure InternalNativeReceipt where
  transaction : ConfirmedTransaction
  traceAddress : List ℕ
  sender : Address
  recipient : Address
  amount : ℤ
deriving DecidableEq

def receiveInternalNative (db : Db) (receipt : InternalNativeReceipt) (actor : String) :
    Result Db := do
  require (actor ≠ "") (.funds "verified internal native receipt and operator identity required")
  let transaction := receipt.transaction
  require (1 ≤ receipt.traceAddress.length ∧ receipt.traceAddress.length ≤ 64 ∧
      ∀ index ∈ receipt.traceAddress, index < 2 ^ 31)
    (.funds "internal transfer path must contain nonnegative integer call indexes")
  let amount ← units receipt.amount true
  require (transaction.successful ∧ receipt.recipient = transaction.network.custody ∧
      receipt.sender ≠ transaction.network.custody ∧
      transaction.sender ≠ transaction.network.custody)
    (.funds "internal native funding must come from outside pool custody")
  let db ← Custody.bind db transaction.network
  let db ← Custody.saveTransaction db transaction
  let key := (transaction.network.chainId, transaction.txHash, receipt.traceAddress)
  match db.funds.nativeInternalReceipts.lookup key with
  | some previous =>
      require (previous.sender = receipt.sender ∧ previous.recipient = receipt.recipient ∧
          previous.amount = amount)
        (.conflict "recorded internal native transfer facts changed")
      return db
  | none =>
      let row : NativeInternalReceipt :=
        { sender := receipt.sender, recipient := receipt.recipient, amount, actor }
      let ledger ← db.funds.ledger.post (.nativeInternalReceipt transaction.network.chainId
          transaction.txHash receipt.traceAddress) "operator_native_funding"
        [(.external .custody .NATIVE, -amount), (.operator .custody .NATIVE, amount)]
        (.obj [("actor", .str actor), ("chain_id", .int transaction.network.chainId),
          ("sender", .str receipt.sender),
          ("trace_address", .arr (receipt.traceAddress.map fun n => .int n)),
          ("tx_hash", .str transaction.txHash)])
      return { db with funds := { db.funds with
        ledger := ledger
        nativeInternalReceipts := AList.insert key row db.funds.nativeInternalReceipts } }

end TigPool
