/-
# `TigPool.Openings` — money that was there before the pool

Three ways for value to enter the books without a deposit or a top-up, each
usable once and only before there is any pool activity it could be confused
with: the opening balance of the custody wallet, which the custody observer
records when it starts, the starter grant of the test network, and a top-up made
on the main network before the pool ran.
-/
import TigPool.Topups

namespace TigPool

open Basis

/-! ## The custody observer -/

namespace ChainObserver

/-- What a verified custody capture says about the wallet and its transfers. -/
structure Capture where
  identity : String
  network : Network
  first : ℕ
  last : ℕ
  beforeHash : String
  blockHash : String
  /-- The TIG, the native units and the nonce of the wallet before `first`. -/
  openingTig : ℕ
  openingNative : ℕ
  openingNonce : ℕ
  custodyCode : String
  transfers : List ConfirmedTransfer

/-- Open an account's asset with what the wallet already holds. -/
def openAsset (ledger : Ledger) (value : Capture) (asset : Asset) (amount : ℕ)
    (actor reason : String) : Result Ledger := do
  let ledger ← ledger.account (.operator .custody asset) .operator asset
  let ledger ← ledger.account (.external .custody asset) .external asset
  if amount ≠ 0 then
    ledger.post (.custodyOpening value.identity asset) ("operator_custody_opening_" ++ asset.name)
      [(.external .custody asset, -amount), (.operator .custody asset, amount)]
      (.obj [("actor", .str (if actor ≠ "" then actor else "observer")),
        ("capture_id", .str value.identity), ("height", .int (value.first - 1)),
        ("reason", .str (if reason ≠ "" then reason else "zero-balance custody initialization"))])
  else .ok ledger

/-- The first transaction of `record`, where there is no stream yet. -/
def initializeStream (db : Db) (value : Capture) (explicitStart : Bool)
    (actor reason : String) : Result Db := do
  require (db.funds.chainStream = none) (.conflict "custody observer has already started")
  require (explicitStart = true) (.conflict "custody observer requires an explicit starting height")
  let baseline : Bool := value.openingTig ≠ 0 ∨ value.openingNative ≠ 0 ∨ value.openingNonce ≠ 0 ∨
    actor ≠ "" ∨ reason ≠ ""
  require (¬ baseline ∨ (actor ≠ "" ∧ reason ≠ ""))
    (.conflict "a funded prelaunch wallet requires a named operator and opening reason")
  require (¬ baseline ∨ value.custodyCode = "0x")
    (.conflict "a prelaunch custody baseline requires an undelegated wallet")
  require (¬ baseline ∨ paused db = true)
    (.conflict "a custody opening baseline requires work to remain paused")
  require (¬ baseline ∨ (db.funds.reservations.entries = [] ∧ db.funds.withdrawals.entries = []))
    (.conflict "custody opening baseline must precede pool work or withdrawals")
  let db ← Custody.bind db value.network
  require (db.funds.ledger.backing .TIG = 0 ∧ db.funds.ledger.backing .NATIVE = 0)
    (.conflict "custody opening baseline requires an empty internal custody ledger")
  let ledger ← openAsset db.funds.ledger value .TIG value.openingTig actor reason
  let ledger ← openAsset ledger value .NATIVE value.openingNative actor reason
  let stream : ChainStream :=
    { network := value.network, startHeight := value.first, lastHeight := value.first - 1,
      lastHash := value.beforeHash, startNonce := value.openingNonce }
  return { db with funds := { db.funds with
    ledger := ledger
    chainStream := some stream
    openingBaseline := if baseline then some
        { captureId := value.identity, tig := value.openingTig, native := value.openingNative,
          actor, reason }
      else none } }

/-- What the second transaction of `record` finds a capture to be. -/
inductive Batch where
  | replayed
  | superseded
  | next
deriving DecidableEq

/-- Where a capture stands to the stream. -/
def checkBatch (db : Db) (value : Capture) : Result Batch := do
  let stream ← fetch db.funds.chainStream (.malformed "custody observer has not started")
  require (stream.network = value.network)
    (.conflict "custody observer network or finality policy changed")
  if value.identity ∈ db.funds.chainBatches then
    return .replayed
  else if (value.last : ℤ) ≤ stream.lastHeight ∧ (value.first : ℤ) ≤ stream.lastHeight then do
    require ((value.last : ℤ) = stream.lastHeight → value.blockHash = stream.lastHash)
      (.conflict "recorded finalized custody anchor changed")
    require (∀ t ∈ value.transfers, (db.funds.transfers.lookup t.eventId).any
        (fun row => Deposits.sameFacts row t) = true)
      (.conflict "recorded finalized custody transfer history changed")
    return .superseded
  else do
    require ((value.first : ℤ) = stream.lastHeight + 1)
      (.conflict ("custody capture overlaps or skips the current cursor; " ++
        "recapture from the next height"))
    require (value.beforeHash = stream.lastHash)
      (.conflict "recorded finalized custody anchor changed")
    return .next

/-- One transfer of the next capture, in a transaction of its own. -/
def recordTransfer (db : Db) (transfer : ConfirmedTransfer) : Result Db :=
  if transfer.recipient = transfer.network.custody ∧ transfer.sender ≠ transfer.network.custody then
    (Deposits.receive db transfer).map (·.1)
  else Deposits.saveTransfer db transfer

/-- The last writes of `record`, once every transfer of the capture is saved. -/
def advance (db : Db) (value : Capture) : Result Db := do
  let batch ← checkBatch db value
  require (batch = .next) (.conflict "nothing to advance to")
  require (∀ t ∈ value.transfers, t.eventId ∈ db.funds.transfers)
    (.conflict "transfers of the capture are not saved yet")
  let db ← Custody.bind db value.network
  let stream ← fetch db.funds.chainStream (.malformed "custody observer has not started")
  return { db with funds := { db.funds with
    chainBatches := value.identity :: db.funds.chainBatches
    chainStream := some { stream with lastHeight := value.last, lastHash := value.blockHash } } }

end ChainObserver

/-! ## Opening protocol credits -/

namespace StarterCredit

def apiOrigin : String := "https://testnet-api.tig.foundation"
def chainId : ℕ := 84532
def chainIdText : String := "0x14a34"
def token : Address := "0x3366feee9bbe5b830df9e1fa743828732b13959a"
def amount : ℕ := 10 * tig
def source : String := "tig-testnet-starter"

/-- Has anything ever touched the protocol location? -/
def protocolActivity (db : Db) : Bool :=
  db.funds.reservations.entries ≠ [] ∨ db.funds.protocolTopups.entries ≠ [] ∨
    db.funds.topupFacts.entries ≠ [] ∨
    db.funds.ledger.journals.any fun _ journal =>
      journal.amounts.any fun entry => entry.1.place.2 = .protocol

/-- Post the observed opening credit once. -/
def initializeCredit (db : Db) (captureId playerId actor : String) :
    Result (Db × ProtocolOpeningCredit) := do
  let playerId ← address playerId
  require (actor ≠ "" ∧ actor.length ≤ 200)
    (.funds "starter-credit setup requires a named operator")
  match db.funds.protocolOpeningCredits.lookup source with
  | some previous =>
      require (previous.playerId = playerId)
        (.conflict "starter credit already belongs to a different player")
      return (db, previous)
  | none =>
      let (capture, snapshot) ← Funding.read db captureId
      require (snapshot.playerId = playerId)
        (.conflict "starter-credit evidence belongs to another player")
      require (capture.apiOrigin = some apiOrigin)
        (.funds "starter credit requires an explicit official testnet capture")
      require (∀ network ∈ capture.erc20, network = (chainIdText, token))
        (.funds "starter-credit capture has a different chain or token")
      require (snapshot.available = amount ∧ capture.rawTopups = [])
        (.funds "starter credit requires exactly 10 TIG and no top-up history")
      require (db.funds.custodyIdentity =
          some { chainId, token, wallet := playerId, decimals := 18 })
        (.conflict "initialize the matching testnet custody identity before starter credit")
      require (db.funds.protocolIdentity = some playerId ∧ db.funds.fundingAlerts = [] ∧
          (Funding.latest db playerId).any fun c => c.1 = captureId ∧ Funding.fresh db c.2)
        (.conflict "starter credit requires the latest fresh, complete funding observation")
      require (protocolActivity db = false ∧ Funding.balance db = 0)
        (.conflict "starter credit must be initialized before any pool protocol activity")
      let ledger ← db.funds.ledger.post (.protocolOpening source) "operator_testnet_starter_credit"
        [(.external .protocol .TIG, -amount), (operatorFees, amount)]
        (.obj [("actor", .str actor), ("api_origin", .str apiOrigin), ("capture_id", .str captureId),
          ("chain_id", .int chainId), ("player_id", .str playerId), ("source", .str source),
          ("token", .str token)])
      let row : ProtocolOpeningCredit := { playerId, captureId, amount, actor }
      return ({ db with funds := { db.funds with
        ledger := ledger
        protocolOpeningCredits := AList.insert source row db.funds.protocolOpeningCredits } }, row)

end StarterCredit

namespace Prelaunch

def mainnetApi : String := "https://mainnet-api.tig.foundation"
def mainnetChain : ℕ := 8453
def mainnetToken : Address := "0x0c03ce270b4826ec62e7dd007f0b716068639f7b"
def topupAddress : Address := "0x0000000000000000000000000000000000000001"

/-- Credit a prelaunch top-up only after TIG and finalized Base evidence agree. -/
def creditMainnetTopup (db : Db) (captureId : String) (transaction : ConfirmedTransaction)
    (transfer : ConfirmedTransfer) (actor reason : String) : Result (Db × MainnetOpeningCredit) := do
  require (actor ≠ "" ∧ actor.length ≤ 200 ∧ reason ≠ "")
    (.funds "prelaunch protocol credit requires a named operator and reason")
  let network := transaction.network
  require (network.chainId = mainnetChain ∧ network.token = mainnetToken ∧
      network.requireFinalized ∧ network.confirmations = 12)
    (.funds "prelaunch credit requires the configured finalized Base network")
  require (transfer.network = network ∧ transaction.successful ∧ transaction.value = 0 ∧
      transaction.sender = network.custody ∧ transaction.recipient = some network.token ∧
      transaction.txHash = transfer.txHash ∧ transaction.blockNumber = transfer.blockNumber ∧
      transaction.blockHash = transfer.blockHash ∧ transfer.sender = network.custody ∧
      transfer.recipient = topupAddress)
    (.conflict "Base transaction does not prove the pool wallet top-up transfer")
  let (capture, snapshot) ← Funding.read db captureId
  require (capture.apiOrigin = some mainnetApi ∧ snapshot.playerId = network.custody)
    (.funds "TIG evidence is not a mainnet capture for this pool wallet")
  let topups := snapshot.topups.entries.map fun e => (e.1, e.2)
  require (snapshot.recipient = topupAddress ∧ capture.rawTopups.length = 1 ∧
      capture.rawTopups.all (·.2) ∧ snapshot.available = transfer.amount)
    (.conflict "TIG must show this exact, unused top-up as the full available fee balance")
  match topups with
  | [(topupId, topup)] =>
      require (topup.txHash = transfer.txHash ∧ topup.logIndex = transfer.logIndex ∧
          topup.amount = transfer.amount)
        (.conflict "TIG must show this exact, unused top-up as the full available fee balance")
      let db ← Custody.bind db network
      require (db.funds.fundingAlerts = [] ∧ (Funding.latest db network.custody).any fun c =>
          c.1 = captureId ∧ Funding.fresh db c.2 ∧
            c.2.snapshot.map (·.available) = some (transfer.amount : ℤ))
        (.conflict "opening credit requires the latest fresh, complete, conflict-free TIG capture")
      match db.funds.mainnetOpeningCredits.lookup topupId with
      | some previous =>
          require (previous.captureId = captureId ∧ previous.txHash = transfer.txHash ∧
              previous.logIndex = transfer.logIndex ∧ previous.amount = transfer.amount)
            (.conflict "mainnet top-up already has a different opening credit")
          return (db, previous)
      | none =>
          require (db.funds.reservations.entries = [] ∧ db.funds.protocolTopups.entries = [] ∧
              db.funds.protocolOpeningCredits.entries = [] ∧ Funding.balance db = 0)
            (.conflict ("prelaunch credit is only available before pool protocol spending " ++
              "or other credits"))
          require (db.funds.protocolIdentity = some network.custody)
            (.conflict "pool protocol identity must be bound to the verified custody wallet")
          let ledger ← db.funds.ledger.post (.mainnetPrelaunch topupId)
            "operator_mainnet_prelaunch_protocol_funding"
            [(.external .protocol .TIG, -transfer.amount), (operatorFees, transfer.amount)]
            (.obj [("actor", .str actor), ("base_block", .int transfer.blockNumber),
              ("base_hash", .str transfer.blockHash), ("capture_id", .str captureId),
              ("log_index", .int transfer.logIndex), ("player_id", .str network.custody),
              ("reason", .str reason), ("topup_id", .str topupId),
              ("tx_hash", .str transfer.txHash)])
          require (db.funds.mainnetOpeningCredits.any (fun _ row =>
              row.txHash = transfer.txHash ∧ row.logIndex = transfer.logIndex) = false)
            (.integrity "mainnet_protocol_opening_credits_tx_hash_log_index_key")
          let row : MainnetOpeningCredit :=
            { playerId := network.custody, captureId, txHash := transfer.txHash,
              logIndex := transfer.logIndex, amount := transfer.amount,
              baseBlock := transfer.blockNumber, baseHash := transfer.blockHash, actor, reason }
          return ({ db with funds := { db.funds with
            ledger := ledger
            mainnetOpeningCredits :=
              AList.insert topupId row db.funds.mainnetOpeningCredits } }, row)
  | _ => throw (.conflict "TIG must show this exact, unused top-up as the full available fee balance")

end Prelaunch

end TigPool
