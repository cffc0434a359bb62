/-
# `TigPool.Topups` — operator-funded protocol fee top-ups

A top-up leaves custody as an ordinary token transfer and arrives, later and by
TIG's own word, as protocol fee balance.  The two legs are two journals with two
receipts:

    begin ──▶ uncertain ──reconcile──▶ awaiting_protocol ──credit──▶ credited
                  └────────reconcile──▶ failed, cancelled

`Funding.record` keeps what TIG has ever said about confirmed top-ups; once it
contradicts itself there is an alert, and `credit` refuses.
-/
import TigPool.Withdrawals

namespace TigPool

open Basis

/-! ## Funding captures -/

namespace Funding

/-- Compare one confirmed top-up with the facts on record, and add it if it is new. -/
def rememberTopup (playerId : Address) (known : Table String TopupFact × Bool)
    (item : String × ConfirmedTopup) : Table String TopupFact × Bool :=
  let (facts, conflict) := known
  match facts.find fun identity row => identity = item.1 ∨
      (row.playerId = playerId ∧ row.facts.txHash = item.2.txHash ∧
        row.facts.logIndex = item.2.logIndex) with
  | some (identity, row) =>
      if identity = item.1 ∧ row.playerId = playerId ∧ row.facts = item.2 then known
      else (facts, true)
  | none => (AList.insert item.1 ⟨playerId, item.2⟩ facts, conflict)

/-- A top-up once confirmed at this height or below may not become unconfirmed. -/
def withdrawn (facts : Table String TopupFact) (capture : FundingCapture) (height : ℕ) : Bool :=
  capture.rawTopups.any fun item =>
    ¬ item.2 ∧ (facts.lookup item.1).any fun known => known.facts.height ≤ height

/-- Keep a capture of the player's funding, complete or not. -/
def record (db : Db) (identity : String) (capture : FundingCapture) : Result Db := do
  let playerId ← address capture.playerId
  require (db.funds.protocolIdentity.all (· = playerId))
    (.conflict "protocol funding identity changed")
  require (db.funds.custodyIdentity.all (·.wallet = playerId))
    (.conflict "direct protocol funding requires custody and benchmarker addresses to match")
  let captures := if identity ∈ db.funds.fundingCaptures then db.funds.fundingCaptures
    else AList.insert identity { capture with playerId, createdAt := db.clock }
      db.funds.fundingCaptures
  match capture.snapshot with
  | none => return { db with funds := { db.funds with fundingCaptures := captures } }
  | some snapshot =>
      let (facts, conflict) := (snapshot.topups.entries.map fun e => (e.1, e.2)).foldl
        (rememberTopup playerId) (db.funds.topupFacts, false)
      let conflict := conflict || withdrawn facts capture snapshot.height
      return { db with funds := { db.funds with
        protocolIdentity := some (db.funds.protocolIdentity.getD playerId)
        fundingCaptures := captures
        topupFacts := facts
        fundingAlerts := if conflict ∧ identity ∉ db.funds.fundingAlerts
          then identity :: db.funds.fundingAlerts else db.funds.fundingAlerts } }

/-- `verify(read_capture(..))`: the snapshot of a recorded capture. -/
def read (db : Db) (identity : String) : Result (FundingCapture × FundingSnapshot) := do
  let capture ← fetch (db.funds.fundingCaptures.lookup identity)
    (.funds "unknown protocol funding capture")
  let snapshot ← fetch capture.snapshot (.protocolData "incomplete capture")
  return (capture, snapshot)

end Funding

/-! ## Top-ups -/

namespace Topups

/-- The account that holds an asset of a top-up. -/
abbrev held (identity : Uuid) (asset : Asset) : AccountId := .topup identity asset

def begin (db : Db) (requestKey : String) (preflight : CustodyPreflight) (policyCapture : String)
    (amount feeLimit : ℤ) (feeModel actor : String) (around : Surroundings) (identity : Uuid)
    (cap : Option SpendingCap) : Result (Db × Uuid) := do
  let amount ← units amount true
  let feeLimit ← units feeLimit true
  require (feeModel ∈ Withdrawals.feeModels ∧ amount < 2 ^ 256 ∧ 1 ≤ actor.length ∧
      actor.length ≤ 128 ∧ 1 ≤ requestKey.length ∧ requestKey.length ≤ 128)
    (.funds "top-up requires a verified preflight, fee rule, operator and bounded request key")
  let (capture, policy) ← Funding.read db policyCapture
  let db ← Custody.bind db preflight.network
  match db.funds.protocolTopups.find fun _ t => t.requestKey = requestKey with
  | some (existing, old) =>
      require (old.amount = amount ∧ old.feeLimit = feeLimit ∧ old.actor = actor)
        (.conflict "top-up request key was reused")
      return (db, existing)
  | none =>
      let _ ← around.pilot
      let age := around.hostClock - preflight.checkedAt
      let policyAge := around.hostClock - capture.checkedAt
      require (-seconds 5 ≤ age ∧ age ≤ seconds 20 ∧ -seconds 5 ≤ policyAge ∧
          policyAge ≤ seconds 120)
        (.conflict "top-up preflight or protocol policy is stale")
      require (preflight.network.requireFinalized ∧ preflight.network.custody = policy.playerId)
        (.conflict "top-up must fund the same finalized custody and benchmarker account")
      require (policy.minimum ≤ amount)
        (.funds "top-up amount is below the captured protocol minimum")
      require (db.funds.ledger.backing .TIG = preflight.tokenBalance ∧
          db.funds.ledger.backing .NATIVE = preflight.nativeBalance)
        (.conflict "wallet balances do not reconcile before top-up")
      require (¬ around.custodyInitialized ∨ around.custodyReady)
        (.conflict "custody observer requires reconciliation before top-up")
      require (db.funds.protocolIdentity.any (Funding.ready db ·))
        (.conflict "protocol fee balance requires reconciliation before another top-up")
      require ((db.funds.protocolIdentity.bind (Funding.latest db ·)).map (·.1) = some policyCapture)
        (.conflict "top-up must use the most recent protocol policy observation")
      let _ ← Spending.checkGas db feeLimit cap
      let db ← Custody.reserveNonce db identity preflight.network preflight.nonce .protocolTopup
      let ledger ← db.funds.ledger.account (held identity .TIG) .operatorCommitment .TIG
      let ledger ← ledger.account (held identity .NATIVE) .operatorCommitment .NATIVE
      let ledger ← ledger.post (.topupReserve identity) "operator_topup_reservation"
        [(.operator .custody .TIG, -amount), (held identity .TIG, amount),
         (.operator .custody .NATIVE, -feeLimit), (held identity .NATIVE, feeLimit)]
        (.obj [("actor", .str actor), ("policy_capture", .str policyCapture)])
      require (identity ∉ db.funds.protocolTopups) (.integrity "protocol_topups_pkey")
      let row : ProtocolTopup :=
        { requestKey, amount, feeLimit, network := preflight.network, recipient := policy.recipient,
          feeModel, policyCapture, preflightBlock := preflight.blockNumber, actor,
          state := .uncertain, sentAt := db.clock }
      return ((db.withLedger ledger).putTopup identity row, identity)

/-- A top-up with its custody send, as `instructions` reads them together. -/
structure Instructions where
  row : ProtocolTopup
  send : CustodySend

def instructions (db : Db) (identity : Uuid) : Result Instructions := do
  let row ← fetch (db.funds.protocolTopups.lookup identity) (.funds "unknown operator top-up")
  let send ← fetch (db.funds.custodySends.lookup identity) (.funds "unknown operator top-up")
  return { row, send }

/-- `_transaction`: does the verified transaction take the frozen route? -/
def checkTransaction (value : Instructions) (transaction : ConfirmedTransaction)
    (transfer : Option ConfirmedTransfer) : Result Unit := do
  let network := value.row.network
  require (transaction.network.chainId = network.chainId ∧
      transaction.network.token = network.token ∧ transaction.network.custody = network.custody ∧
      transaction.sender = value.send.sender ∧ transaction.nonce = value.send.nonce ∧
      transaction.feeModel = value.row.feeModel)
    (.conflict "top-up transaction differs from the frozen route, nonce or fee rule")
  require (transaction.network.requireFinalized ∧
      network.confirmations ≤ transaction.network.confirmations)
    (.conflict "top-up confirmation policy cannot be weakened")
  require (value.row.preflightBlock < transaction.blockNumber ∧
      value.row.sentAt ≤ transaction.blockTimestamp + seconds 5)
    (.conflict "top-up transaction predates the recorded intent")
  match transfer with
  | none => return ()
  | some t =>
      require (t.network.requireFinalized ∧ network.confirmations ≤ t.network.confirmations)
        (.conflict "top-up confirmation policy cannot be weakened")
      require (t.network.chainId = network.chainId ∧ t.network.token = network.token ∧
          t.network.custody = network.custody ∧ t.sender = value.send.sender ∧
          t.recipient = value.row.recipient ∧ t.amount = value.row.amount ∧
          t.txHash = transaction.txHash ∧ t.blockHash = transaction.blockHash)
        (.conflict "top-up token event does not match the full frozen amount and destination")

/-- What a finalized transaction with the top-up's nonce means for it. -/
def outcome (row : ProtocolTopup) (transaction : ConfirmedTransaction)
    (transfer : Option ConfirmedTransfer) : Result TopupState :=
  if ¬ transaction.successful then do
    require (transfer = none) (.conflict "failed top-up cannot contain a successful token event")
    return .failed
  else if transfer.isSome then do
    require (transaction.recipient = some row.network.token ∧ transaction.value = 0)
      (.conflict ("top-up requires the frozen direct token transaction; " ++
        "reconcile other wallet costs explicitly"))
    return .awaitingProtocol
  else do
    require (Withdrawals.isEmptySelfSend transaction = true)
      (.conflict "unmatched successful top-up needs explicit wallet reconciliation")
    return .cancelled

def stateName : TopupState → String
  | .uncertain => "uncertain"
  | .awaitingProtocol => "awaiting_protocol"
  | .credited => "credited"
  | .failed => "failed"
  | .cancelled => "cancelled"

/-- The first half of `reconcile`: keep valid raw chain evidence. -/
def reconcileEvidence (db : Db) (identity : Uuid) (transaction : ConfirmedTransaction) :
    Result Db := do
  let value ← instructions db identity
  checkTransaction value transaction none
  Custody.saveTransaction db transaction

/-- The second half of `reconcile`.  The route it compares with was read before
the transaction began; nothing in it ever changes. -/
def reconcile (db : Db) (identity : Uuid) (transaction : ConfirmedTransaction)
    (transfer : Option ConfirmedTransfer) : Result (Db × TopupState) := do
  let value ← instructions db identity
  checkTransaction value transaction transfer
  let db ← Custody.bind db transaction.network
  let row := value.row
  match value.send.payment with
  | some previous =>
      require (previous.txHash = transaction.txHash ∧
          previous.transferEvent = transfer.map (·.eventId))
        (.conflict "top-up already has a different final transaction or token event")
      return (db, row.state)
  | none =>
      require (row.state = .uncertain) (.conflict "top-up no longer has an unresolved send")
      let outcome ← outcome row transaction transfer
      let db ← transfer.elim (.ok db) fun t => Deposits.saveTransfer db t
      let destination : AccountId :=
        if outcome = .awaitingProtocol then .external .custody .TIG else .operator .custody .TIG
      let ledger ← db.funds.ledger.post (.topupCash identity)
        ("operator_topup_" ++ stateName outcome)
        [(held identity .TIG, -row.amount), (destination, row.amount),
         (held identity .NATIVE, -row.feeLimit),
         (.operator .custody .NATIVE, row.feeLimit - transaction.fee),
         (.external .custody .NATIVE, transaction.fee)]
        (.obj [("fee", .int transaction.fee), ("fee_model", .str transaction.feeModel),
          ("transfer_event", transfer.elim .null (·.eventId.json)),
          ("tx_hash", .str transaction.txHash)])
      let db ← Custody.recordPayment (db.withLedger ledger) identity transaction
        (transfer.map (·.eventId)) (.topupCash identity)
      return (db.putTopup identity { row with state := outcome }, outcome)

/-- Record the protocol balance TIG has confirmed for a paid top-up.  `value` was
read in an earlier transaction, perhaps before the top-up was paid. -/
def credit (db : Db) (identity : Uuid) (value : Instructions) (captureId : String) :
    Result (Db × TopupCredit) := do
  let (_, snapshot) ← Funding.read db captureId
  require (snapshot.playerId = value.send.sender)
    (.conflict "protocol confirmation belongs to another account")
  let db ← Custody.bind db value.row.network
  require (db.funds.fundingAlerts = [])
    (.conflict "confirmed protocol top-up history requires reconciliation before credit")
  let row ← fetch (db.funds.protocolTopups.lookup identity) (.funds "unknown operator top-up")
  match row.credit with
  | some old => return (db, old)
  | none =>
      require (row.state = .awaitingProtocol)
        (.conflict "verified outgoing token transfer is required before protocol credit")
      let event ← fetch (value.send.payment.bind (·.transferEvent))
        (.malformed "top-up has no transfer event")
      require (event ∈ db.funds.transfers) (.malformed "top-up has no transfer event")
      let confirmed := (snapshot.topups.entries.map fun e => (e.1, e.2)).filter fun t =>
        t.2.txHash = event.txHash ∧ t.2.logIndex = event.logIndex ∧ t.2.amount = value.row.amount
      match confirmed with
      | [(topupId, _)] =>
          require (db.funds.protocolTopups.any (fun _ t => t.credit.any fun c =>
              c.topupId = topupId ∨ c.transferEvent = event) = false)
            (.conflict "protocol top-up credit has already been consumed")
          let ledger ← db.funds.ledger.post (.topupProtocol identity) "operator_protocol_funding"
            [(.external .protocol .TIG, -value.row.amount), (operatorFees, value.row.amount)]
            (.obj [("capture_id", .str captureId), ("topup_id", .str topupId),
              ("transfer_event", event.json)])
          let result : TopupCredit := { topupId, captureId, transferEvent := event }
          return ((db.withLedger ledger).putTopup identity
            { row with state := .credited, credit := some result }, result)
      | _ => throw (.conflict "TIG has not uniquely confirmed this exact top-up event")

end Topups

end TigPool
