/-
# `TigPool.System` — the service as one machine

A state is the database and what the processes hold between two transactions of one
operation: evidence they have saved and not yet acted upon, rows they have read,
credits they have added up.  A step is one committed transaction, labelled by what it
is; a transaction that fails is rolled back and is no step.  Nothing restricts the
order of the steps, and nothing that is held is ever dropped, so any number of
processes may interleave, repeat each other's work, or stop halfway.  The exception is
the plan of a retention run: the lock under which a run plans is held by one at a time.
-/
import TigPool.Retention
import TigPool.Refinement.Observation
import TigPool.Refinement.Submissions

namespace TigPool

open Basis

/-! ## States -/

/-- Member credits that were added up for a round, and whether any credit of that
round has been committed since. -/
structure CreditReading where
  round : ℕ
  credits : Table String ℚ
  stale : Bool

/-- What processes hold between two transactions. -/
structure Held where
  /-- Withdrawal attempts whose evidence is saved. -/
  attempts : List (Uuid × ConfirmedTransaction × Option ConfirmedTransfer)
  /-- Top-ups whose evidence is saved. -/
  topups : List (Uuid × ConfirmedTransaction)
  /-- Instructions of top-ups that were read. -/
  instructions : List (Uuid × Topups.Instructions)
  /-- Spending caps that were read for a custody send, before its fence. -/
  caps : List SpendingCap
  /-- Rounds whose coverage was complete when `round_credits` looked. -/
  covered : List ℕ
  readings : List CreditReading
  /-- Blocks that were replayed. -/
  snapshots : List (String × BlockSnapshot)
  /-- The plan of a retention run; one run at a time plans. -/
  plan : Option Retention.Plan
  /-- Plans whose floors are written. -/
  targets : List Retention.Plan

structure Sys where
  db : Db
  held : Held

/-! ## Labels -/

/-- Transactions about members, reservations and money. -/
inductive FundsAction where
  | initializeAccounts
  | registerVerified
  | setMultiplier
  | setWithdrawalWallet
  | reserve (reservation member : Uuid) (round : ℕ)
  | markSubmitting (reservation : Uuid)
  | accept (reservation : Uuid)
  | releaseUnstarted (reservation : Uuid)
  | releaseUnhanded (reservation : Uuid)
  | acknowledge (reservation : Uuid)
  | recordOutcome (reservation : Uuid)
  | finalizeCollateral (reservation : Uuid)
  | receive (event : EventId) (destination : AccountId)
  | attributeReviewed (event : EventId) (destination : AccountId)
  | attributeReceipt (event : EventId) (round : ℕ)
  | receiveNative
  | receiveInternalNative
  | declareEarnings (round : ℕ)
  | reimburseOperatingCost (round : ℕ)
  | preview (round : ℕ)
  | allocate (round : ℕ) (members : List Uuid)
  | request (withdrawal member : Uuid)
  | requestOperator (withdrawal : Uuid)
  | approve (withdrawal : Uuid)
  | release (withdrawal : Uuid)
  | begin (withdrawal attempt : Uuid)
  | reconcile (attempt : Uuid) (outcome : AttemptOutcome)
  | reconcileSponsored (attempt : Uuid)
  | recordFunding
  | beginTopup (topup : Uuid)
  | reconcileTopup (topup : Uuid) (state : TopupState)
  | creditTopup (topup : Uuid)
  | initializeStream
  | recordTransfer (event : EventId)
  | advance
  | initializeCredit
  | creditMainnetTopup
  /-- A correction that an operator posts. -/
  | correct
deriving DecidableEq

/-- Transactions about reports and arbitrations. -/
inductive ReportAction where
  | record
  | expire
  | recordIndex
  | scope
  | sealRound
deriving DecidableEq

/-- Transactions about observed blocks. -/
inductive ObservationAction where
  | initializeStore
  | record (source : BlockStore.Source) (capture : Option BlockStore.BlockCapture)
      (height : Option ℕ)
  | resolve
  | setGapPolicy
  | waivePrelaunchGap
  | creditBlock (block player : String)
  | backfill (block player : String)
  | markReconciled
  | advanceFloors
  | expireCaptures
  | removeChunks
  | expireCopies
  | prune
  | collectUnusedChunks
  | initializeChunkIndex

/-- Does it write floors? -/
def ObservationAction.advances : ObservationAction → Bool
  | .advanceFloors => true
  | _ => false

/-- Does it write nothing but evidence? -/
def ObservationAction.archives : ObservationAction → Bool
  | .backfill .. | .markReconciled | .advanceFloors | .expireCaptures | .removeChunks
  | .expireCopies | .prune | .collectUnusedChunks | .initializeChunkIndex => true
  | _ => false

/-- Transactions about work and submissions. -/
inductive WorkAction where
  | create
  | refresh
  | get
  | hasQueued
  | setPause
  | setCap
  | reserveNext (reservation : Uuid)
  | recordBinary
  | begin (intent : Uuid)
  | cancelUnsent (intent : Uuid)
  | recordResponse (intent : Uuid)
  | definitiveRejection (intent : Uuid)
  | recoverPrecommit (intent : Uuid)
  | publishAssignment (reservation : Uuid)
  | confirmPayload
  | retireUnsentPayload
  | results
  | sampled
  | proofs (blake3 : Blake3)
  | expireUnsentResults (reservation : Uuid)
  | expireRejectedResults (reservation : Uuid)

/-- Transactions that only prepare a later one. -/
inductive HoldAction where
  | reconcileEvidence
  | topupEvidence
  | instructions
  | readCap
  | coverage
  | credits
  | read
  | plan
  | look
  | abandonPlan
deriving DecidableEq

inductive Action where
  | funds (action : FundsAction)
  | report (action : ReportAction)
  | observe (action : ObservationAction)
  | work (action : WorkAction)
  | hold (action : HoldAction)
  /-- Time passes. -/
  | tick

/-! ## Transactions -/

/-- The transactions about members, reservations and money. -/
inductive FundsStep (held : Held) (db : Db) : FundsAction → Db → Prop
  | initializeAccounts {db' : Db} : TigPool.initializeAccounts db = .ok db' →
      FundsStep held db .initializeAccounts db'
  | registerVerified {wallet : String} {identity out : Uuid} {db' : Db} :
      TigPool.registerVerified db wallet identity = .ok (db', out) →
      FundsStep held db .registerVerified db'
  | setMultiplier {member : Uuid} {value : DecimalInput} {actor reason key : String} {db' : Db} :
      TigPool.setMultiplier db member value actor reason key = .ok db' →
      FundsStep held db .setMultiplier db'
  | setWithdrawalWallet {member : Uuid} {wallet : String} {db' : Db} :
      TigPool.setWithdrawalWallet db member wallet = .ok db' →
      FundsStep held db .setWithdrawalWallet db'
  | reserve {member : Uuid} {key : String} {round : ℤ} {resource : Resource}
      {selection payload : Json} {feeLimit : ℤ} {expiresAt : Time} {around : Surroundings}
      {identity out : Uuid} {db' : Db} :
      TigPool.reserve db member key round resource selection payload feeLimit expiresAt around
        identity = .ok (db', out) →
      FundsStep held db (.reserve identity member round.toNat) db'
  | markSubmitting {identity : Uuid} {around : Surroundings} {out : Json} {db' : Db} :
      TigPool.markSubmitting db identity around = .ok (db', out) →
      FundsStep held db (.markSubmitting identity) db'
  | accept {identity out : Uuid} {benchmarkId : String} {assignment evidence : Json} {fee : ℤ}
      {db' : Db} :
      TigPool.accept db identity benchmarkId assignment fee evidence = .ok (db', out) →
      FundsStep held db (.accept identity) db'
  | releaseUnstarted {identity out : Uuid} {rejected : Bool} {fee : ℤ} {evidence : Json}
      {db' : Db} : TigPool.releaseUnstarted db identity rejected fee evidence = .ok (db', out) →
      FundsStep held db (.releaseUnstarted identity) db'
  | releaseUnhanded {identity out : Uuid} {actor reason key : String} {db' : Db} :
      TigPool.releaseUnhanded db identity actor reason key = .ok (db', out) →
      FundsStep held db (.releaseUnhanded identity) db'
  | acknowledge {identity member out : Uuid} {digest : Json} {db' : Db} :
      TigPool.acknowledge db identity member digest = .ok (db', out) →
      FundsStep held db (.acknowledge identity) db'
  | recordOutcome {identity out : Uuid} {outcome : DefinitiveOutcome} {height : ℤ}
      {evidence : Json} {db' : Db} :
      TigPool.recordOutcome db identity outcome height evidence = .ok (db', out) →
      FundsStep held db (.recordOutcome identity) db'
  | finalizeCollateral {identity sealId : Uuid} {out : Option CollateralFinalization} {db' : Db} :
      Settlement.finalizeCollateral db identity sealId = .ok (db', out) →
      FundsStep held db (.finalizeCollateral identity) db'
  | receive {transfer : ConfirmedTransfer} {out : AccountId} {db' : Db} :
      Deposits.receive db transfer = .ok (db', out) →
      FundsStep held db (.receive transfer.eventId out) db'
  | attributeReviewed {transfer : ConfirmedTransfer} {actor : String} {evidence : Json}
      {destination : Deposits.ReviewedDestination} {db' : Db} :
      Deposits.attributeReviewed db transfer actor evidence destination = .ok db' →
      FundsStep held db (.attributeReviewed transfer.eventId destination.account) db'
  | attributeReceipt {round : ℤ} {transfer : ConfirmedTransfer} {evidence : Json}
      {out : RoundReceipt} {db' : Db} :
      Settlement.attributeReceipt db round transfer evidence = .ok (db', out) →
      FundsStep held db (.attributeReceipt transfer.eventId round.toNat) db'
  | receiveNative {transaction : ConfirmedTransaction} {db' : Db} :
      Custody.receiveNative db transaction = .ok db' → FundsStep held db .receiveNative db'
  | receiveInternalNative {receipt : InternalNativeReceipt} {actor : String} {db' : Db} :
      TigPool.receiveInternalNative db receipt actor = .ok db' →
      FundsStep held db .receiveInternalNative db'
  | declareEarnings {round net cost : ℤ} {blockId : String} {evidence : Json}
      {out : RoundEarnings} {db' : Db} :
      Settlement.declareEarnings db round net cost blockId evidence = .ok (db', out) →
      FundsStep held db (.declareEarnings round.toNat) db'
  | reimburseOperatingCost {round : ℕ} {out : RoundReimbursement} {db' : Db} :
      Settlement.reimburseOperatingCost db round = .ok (db', out) →
      FundsStep held db (.reimburseOperatingCost round) db'
  | preview {round : ℕ} {sealId : Uuid} {credits : Table String ℚ} {out : RoundSettlement} :
      Settlement.preview db round sealId credits = .ok out → FundsStep held db (.preview round) db
  | allocate {sealId : Uuid} {reading : CreditReading} {expected : Option SettlementInputs}
      {out : RoundSettlement} {db' : Db} : reading ∈ held.readings →
      Settlement.allocate db reading.round sealId reading.credits expected = .ok (db', out) →
      FundsStep held db (.allocate reading.round (out.memberAllocations.map (·.1))) db'
  | request {member identity out : Uuid} {key : String} {amount : ℤ} {db' : Db} :
      Withdrawals.request db member key amount identity = .ok (db', out) →
      FundsStep held db (.request identity member) db'
  | requestOperator {key : String} {amount reserve : ℤ} {network : Network}
      {recipient actor reason : String} {identity out : Uuid} {db' : Db} :
      Withdrawals.requestOperator db key amount network recipient reserve actor reason identity
        = .ok (db', out) →
      FundsStep held db (.requestOperator identity) db'
  | approve {identity : Uuid} {network : Network} {feeModel actor : String} {evidence : Json}
      {db' : Db} : Withdrawals.approve db identity network feeModel actor evidence = .ok db' →
      FundsStep held db (.approve identity) db'
  | release {identity out : Uuid} {actor reason key : String} {member : Option Uuid} {db' : Db} :
      Withdrawals.release db identity actor reason key member = .ok (db', out) →
      FundsStep held db (.release identity) db'
  | begin {identity attempt out : Uuid} {key : String} {preflight : CustodyPreflight}
      {feeLimit : ℤ} {actor : String} {reserve : Option ℤ} {around : Surroundings}
      {cap : SpendingCap} {db' : Db} : cap ∈ held.caps →
      Withdrawals.begin db identity key preflight feeLimit actor reserve around attempt (some cap)
        = .ok (db', out) →
      FundsStep held db (.begin identity attempt) db'
  | reconcile {attempt : Uuid} {transaction : ConfirmedTransaction}
      {transfer : Option ConfirmedTransfer} {out : AttemptOutcome} {db' : Db} :
      (attempt, transaction, transfer) ∈ held.attempts →
      Withdrawals.reconcile db attempt transaction transfer = .ok (db', out) →
      FundsStep held db (.reconcile attempt out) db'
  | reconcileSponsored {attempt : Uuid} {recovery : SponsoredWithdrawal} {actor reason : String}
      {out : AttemptOutcome} {db' : Db} :
      Withdrawals.reconcileSponsored db attempt recovery actor reason = .ok (db', out) →
      FundsStep held db (.reconcileSponsored attempt) db'
  | recordFunding {identity : String} {capture : FundingCapture} {db' : Db} :
      Funding.record db identity capture = .ok db' → FundsStep held db .recordFunding db'
  | beginTopup {key : String} {preflight : CustodyPreflight} {policyCapture : String}
      {amount feeLimit : ℤ} {feeModel actor : String} {around : Surroundings}
      {identity out : Uuid} {cap : SpendingCap} {db' : Db} : cap ∈ held.caps →
      Topups.begin db key preflight policyCapture amount feeLimit feeModel actor around identity
        (some cap) = .ok (db', out) →
      FundsStep held db (.beginTopup identity) db'
  | reconcileTopup {identity : Uuid} {transaction : ConfirmedTransaction}
      {transfer : Option ConfirmedTransfer} {out : TopupState} {db' : Db} :
      (identity, transaction) ∈ held.topups →
      Topups.reconcile db identity transaction transfer = .ok (db', out) →
      FundsStep held db (.reconcileTopup identity out) db'
  | creditTopup {identity : Uuid} {value : Topups.Instructions} {captureId : String}
      {out : TopupCredit} {db' : Db} : (identity, value) ∈ held.instructions →
      Topups.credit db identity value captureId = .ok (db', out) →
      FundsStep held db (.creditTopup identity) db'
  | initializeStream {value : ChainObserver.Capture} {explicitStart : Bool}
      {actor reason : String} {db' : Db} :
      ChainObserver.initializeStream db value explicitStart actor reason = .ok db' →
      FundsStep held db .initializeStream db'
  | recordTransfer {transfer : ConfirmedTransfer} {db' : Db} :
      ChainObserver.recordTransfer db transfer = .ok db' →
      FundsStep held db (.recordTransfer transfer.eventId) db'
  | advance {value : ChainObserver.Capture} {db' : Db} :
      ChainObserver.advance db value = .ok db' → FundsStep held db .advance db'
  | initializeCredit {captureId playerId actor : String} {out : ProtocolOpeningCredit} {db' : Db} :
      StarterCredit.initializeCredit db captureId playerId actor = .ok (db', out) →
      FundsStep held db .initializeCredit db'
  | creditMainnetTopup {captureId : String} {transaction : ConfirmedTransaction}
      {transfer : ConfirmedTransfer} {actor reason : String} {out : MainnetOpeningCredit}
      {db' : Db} :
      Prelaunch.creditMainnetTopup db captureId transaction transfer actor reason = .ok (db', out) →
      FundsStep held db .creditMainnetTopup db'
  | correct {journal : EventKey} {text actor reason : String} {ledger : Ledger} :
      db.funds.ledger.reverse journal (.correction text) actor reason = .ok ledger →
      FundsStep held db .correct (db.withLedger ledger)

/-- The transactions about reports and arbitrations.  A transaction that archives a response
follows one that read its block, and other transactions may come between the two; what was read,
that the block is there and at which height, is still so. -/
inductive ReportStep (db : Db) : ReportAction → Db → Prop
  | record {round : ℤ} {blockId : String} {payload metadata : Json} {error : Option String}
      {identity out : Uuid} {db' : Db} :
      Reports.record db round blockId payload metadata error identity = .ok (db', out) →
      ReportStep db .record db'
  | archive {round : ℕ} {blockId : String} {block : ObservedBlock} {payload metadata : Json}
      {error : Option String} {identity out : Uuid} {db' : Db} : 0 < round →
      db.observation.blocks.lookup blockId = some block →
      Reports.archive db round block.height blockId payload metadata error identity
        = .ok (db', out) →
      ReportStep db .record db'
  | expire {identity : Uuid} {db' : Db} : Reports.expire db identity = .ok db' →
      ReportStep db .expire db'
  | recordIndex {round : ℤ} {blockId playerId challengeId : String} {payload metadata : Json}
      {error : Option String} {identity out : Uuid} {db' : Db} :
      Reports.recordIndex db round blockId playerId challengeId payload metadata error identity
        = .ok (db', out) →
      ReportStep db .recordIndex db'
  | archiveIndex {round : ℕ} {blockId playerId challengeId : String} {payload metadata : Json}
      {error : Option String} {identity out : Uuid} {db' : Db} : 0 < round →
      blockId ∈ db.observation.blocks →
      Reports.archiveIndex db round blockId playerId challengeId payload metadata error identity
        = .ok (db', out) →
      ReportStep db .recordIndex db'
  | scope {round : ℤ} {rounds : List ℤ} {adapterVersion : String} {evidence : Json} {db' : Db} :
      Reports.scope db round rounds adapterVersion evidence = .ok db' → ReportStep db .scope db'
  | sealRound {round : ℕ} {captureIds : List Uuid} {blockId : String}
      {identity out : Uuid} {db' : Db} :
      Reports.sealRound db round captureIds blockId identity = .ok (db', out) →
      ReportStep db .sealRound db'

/-- The transactions about observed blocks. -/
inductive ObservationStep (held : Held) (db : Db) : ObservationAction → Db → Prop
  | initializeStore {launchHeight : ℕ} {db' : Db} :
      BlockStore.initializeStore db launchHeight = .ok db' →
      ObservationStep held db .initializeStore db'
  | record {source : BlockStore.Source} {capture : Option BlockStore.BlockCapture}
      {height : Option ℕ} {db' : Db} : BlockStore.record db source capture height = .ok db' →
      ObservationStep held db (.record source capture height) db'
  | resolve {index : ℕ} {proof : Result Unit} {db' : Db} :
      BlockStore.resolve db index proof = .ok db' → ObservationStep held db .resolve db'
  | setGapPolicy {maxMissing warnMissing : ℕ} {actor reason : String} {db' : Db} :
      BlockStore.setGapPolicy db maxMissing warnMissing actor reason = .ok db' →
      ObservationStep held db .setGapPolicy db'
  | waivePrelaunchGap {height : ℕ} {actor reason : String} {evidence : Json} {db' : Db} :
      BlockStore.waivePrelaunchGap db height actor reason evidence = .ok db' →
      ObservationStep held db .waivePrelaunchGap db'
  | creditBlock {blockId playerId : String} {snapshot : BlockSnapshot}
      {saved : Qualifiers.PoolCredit} {db' : Db} : (blockId, snapshot) ∈ held.snapshots →
      Qualifiers.poolCredit snapshot playerId = .ok saved →
      Qualifiers.creditBlock db blockId playerId saved = .ok db' →
      ObservationStep held db (.creditBlock blockId playerId) db'
  | backfill {blockId playerId : String} {snapshot : BlockSnapshot}
      {projection : Result Unit} {db' : Db} : (blockId, snapshot) ∈ held.snapshots →
      Compaction.backfill db blockId playerId projection = .ok db' →
      ObservationStep held db (.backfill blockId playerId) db'
  | markReconciled {blockId : String} {db' : Db} :
      Reconciliation.markReconciled db blockId = .ok db' →
      ObservationStep held db .markReconciled db'
  | advanceFloors {plan : Retention.Plan} {db' : Db} : held.plan = some plan → plan.todo = [] →
      Retention.advanceFloors db plan = .ok db' → ObservationStep held db .advanceFloors db'
  | expireCaptures {plan : Retention.Plan} {ids : List Uuid} {db' : Db} : plan ∈ held.targets →
      Retention.expireCaptures db plan ids = .ok db' → ObservationStep held db .expireCaptures db'
  | removeChunks {plan : Retention.Plan} {digests : List String} {db' : Db} :
      plan ∈ held.targets → Retention.removeChunks db plan digests = .ok db' →
      ObservationStep held db .removeChunks db'
  | expireCopies {plan : Retention.Plan} : plan ∈ held.targets →
      ObservationStep held db .expireCopies (Retention.expireCopies db plan)
  | prune {coveredUntil : Time} {ids : List Uuid} {db' : Db} :
      Compaction.prune db coveredUntil ids = .ok db' → ObservationStep held db .prune db'
  | collectUnusedChunks {digests orphans : List String} {db' : Db} :
      Compaction.collectUnusedChunks db digests orphans = .ok db' →
      ObservationStep held db .collectUnusedChunks db'
  | initializeChunkIndex {db' : Db} : Retention.initializeChunkIndex db = .ok db' →
      ObservationStep held db .initializeChunkIndex db'

/-- The transactions about work and submissions. -/
inductive WorkStep (db : Db) : WorkAction → Db → Prop
  | create {member : Uuid} {key resource computeType : String} {capacity : Json} {ttl : ℤ}
      {identity out : Uuid} {db' : Db} :
      WorkRequests.create db member key resource computeType capacity ttl identity
        = .ok (db', out) →
      WorkStep db .create db'
  | refresh {identity member : Uuid} {ttl : ℤ} {db' : Db} :
      WorkRequests.refresh db identity member ttl = .ok db' → WorkStep db .refresh db'
  | get {identity member : Uuid} {out : WorkRequests.View} {db' : Db} :
      WorkRequests.get db identity member = .ok (db', out) → WorkStep db .get db'
  | hasQueued : WorkStep db .hasQueued (WorkRequests.hasQueued db).1
  | setPause {value : Bool} : WorkStep db .setPause (TigPool.setPause db value)
  | setCap {windowSeconds : ℤ} {limits : CapLimits} {actor reason eventKey : String}
      {identity : Uuid} {db' : Db} :
      TigPool.setCap db windowSeconds limits actor reason eventKey identity = .ok db' →
      WorkStep db .setCap db'
  | reserveNext {blockId : String} {choose : WorkRequest → Result (Option WorkRequests.Selection)}
      {queue : List Uuid} {around : Surroundings} {pilot : WorkRequest → Result Unit}
      {fresh : WorkRequests.FreshIds} {out : Option Uuid} {db' : Db} :
      WorkRequests.Chooses db blockId choose →
      WorkRequests.reserveNext db blockId choose queue around pilot fresh = .ok (db', out) →
      WorkStep db (.reserveNext fresh.reservation) db'
  | recordBinary {reservation : Uuid} {sourceUrl digest : String} {db' : Db} :
      Submissions.recordBinary db reservation sourceUrl digest = .ok db' →
      WorkStep db .recordBinary db'
  | begin {identity : Uuid} {preflight : Option Preflight} {around : Surroundings}
      {out : ProtocolIntent} {db' : Db} :
      Submissions.begin db identity preflight around = .ok (db', out) →
      WorkStep db (.begin identity) db'
  | cancelUnsent {identity : Uuid} {evidence : Json} {db' : Db} :
      Submissions.cancelUnsent db identity evidence = .ok db' →
      WorkStep db (.cancelUnsent identity) db'
  | recordResponse {identity responseId : Uuid} {response : Wire} {limits : Wire → Bool}
      {out : Bool} {db' : Db} :
      Submissions.recordResponse db identity response responseId limits = .ok (db', out) →
      WorkStep db (.recordResponse identity) db'
  | definitiveRejection {identity : Uuid} {evidence : Json} {fee : ℤ} {db' : Db} :
      Submissions.definitiveRejection db identity evidence fee = .ok db' →
      WorkStep db (.definitiveRejection identity) db'
  | recoverPrecommit {identity : Uuid} {precommits : List Json} {evidence : Json}
      {out : Option String} {db' : Db} :
      Submissions.recoverPrecommit db identity precommits evidence = .ok (db', out) →
      WorkStep db (.recoverPrecommit identity) db'
  | publishAssignment {reservation out : Uuid} {precommit evidence : Json}
      {snapshot : Submissions.Snapshot} {artifactOrigin : String} {db' : Db} :
      Submissions.publishAssignment db reservation precommit snapshot evidence artifactOrigin
        = .ok (db', out) →
      WorkStep db (.publishAssignment reservation) db'
  | confirmPayload {reservation : Uuid} {kind : IntentKind} {evidence : Json} {db' : Db} :
      Submissions.confirmPayload db reservation kind evidence = .ok db' →
      WorkStep db .confirmPayload db'
  | retireUnsentPayload {identity : Uuid} {out : Bool} {db' : Db} :
      Submissions.retireUnsentPayload db identity = .ok (db', out) →
      WorkStep db .retireUnsentPayload db'
  | results {benchmarkId : String} {member intent : Uuid} {merkleRoot : String}
      {qualities : List ℤ} {db' : Db} :
      MemberProtocol.results db benchmarkId member merkleRoot qualities intent = .ok db' →
      WorkStep db .results db'
  | sampled {benchmarkId : String} {nonces : List ℕ} {evidence : Json} {db' : Db} :
      MemberProtocol.sampled db benchmarkId nonces evidence = .ok db' → WorkStep db .sampled db'
  | proofs {blake3 : Blake3} {benchmarkId : String} {member intent : Uuid} {values : List Json}
      {db' : Db} : MemberProtocol.proofs blake3 db benchmarkId member values intent = .ok db' →
      WorkStep db (.proofs blake3) db'
  | expireUnsentResults {reservation : Uuid} {height : ℤ} {lifetime : Json} {out : Bool}
      {db' : Db} :
      Reconciliation.expireUnsentResults db reservation height lifetime = .ok (db', out) →
      WorkStep db (.expireUnsentResults reservation) db'
  | expireRejectedResults {reservation : Uuid} {height : ℤ} {lifetime : Json}
      {receipt : Uuid × Json} {origin : String} {out : Bool} {db' : Db} :
      Reconciliation.expireRejectedResults db reservation height lifetime receipt origin
        = .ok (db', out) →
      WorkStep db (.expireRejectedResults reservation) db'

namespace Held

def empty : Held := ⟨[], [], [], [], [], [], [], none, []⟩

/-- Was a block of the round credited between these states, and not with zero? -/
def creditCommitted (db db' : Db) (round : ℕ) : Bool :=
  db'.observation.blocks.any fun id b => b.round = round ∧
    ((db.observation.blocks.lookup id).bind (·.credited)).isNone ∧ b.credited.any (·.total ≠ 0)

/-- What a step about observed blocks does to what is held: it can make readings stale,
and when it writes the floors of a plan, it hands the plan on. -/
def observe (held : Held) (a : ObservationAction) (db db' : Db) : Held :=
  { held with
    readings := held.readings.map fun r =>
      if creditCommitted db db' r.round then { r with stale := true } else r
    plan := if a.advances then none else held.plan
    targets := if a.advances then held.plan.toList ++ held.targets else held.targets }

end Held

/-- The transactions whose results are held for a later one. -/
inductive HoldStep : Sys → HoldAction → Sys → Prop
  | reconcileEvidence {db db' : Db} {held : Held} {attempt : Uuid}
      {transaction : ConfirmedTransaction} {transfer : Option ConfirmedTransfer} :
      Withdrawals.reconcileEvidence db attempt transaction transfer = .ok db' →
      HoldStep ⟨db, held⟩ .reconcileEvidence
        ⟨db', { held with attempts := (attempt, transaction, transfer) :: held.attempts }⟩
  | topupEvidence {db db' : Db} {held : Held} {identity : Uuid}
      {transaction : ConfirmedTransaction} :
      Topups.reconcileEvidence db identity transaction = .ok db' →
      HoldStep ⟨db, held⟩ .topupEvidence
        ⟨db', { held with topups := (identity, transaction) :: held.topups }⟩
  | instructions {db : Db} {held : Held} {identity : Uuid} {value : Topups.Instructions} :
      Topups.instructions db identity = .ok value →
      HoldStep ⟨db, held⟩ .instructions
        ⟨db, { held with instructions := (identity, value) :: held.instructions }⟩
  | readCap {db : Db} {held : Held} {cap : SpendingCap} : Spending.current db = some cap →
      HoldStep ⟨db, held⟩ .readCap ⟨db, { held with caps := cap :: held.caps }⟩
  | coverage {db : Db} {held : Held} {round : ℕ} :
      Qualifiers.requireCoverage db round = .ok () →
      HoldStep ⟨db, held⟩ .coverage ⟨db, { held with covered := round :: held.covered }⟩
  | credits {db : Db} {held : Held} {round : ℕ} : round ∈ held.covered →
      HoldStep ⟨db, held⟩ .credits ⟨db, { held with
        readings := ⟨round, Qualifiers.roundCredits db round, false⟩ :: held.readings }⟩
  | read {db : Db} {held : Held} {blockId : String} {snapshot : BlockSnapshot} :
      BlockStore.read db blockId = .ok snapshot →
      HoldStep ⟨db, held⟩ .read
        ⟨db, { held with snapshots := (blockId, snapshot) :: held.snapshots }⟩
  | plan {db : Db} {held : Held} {policy : Retention.Policy} {coveredUntil now : Time} :
      held.plan = none → HoldStep ⟨db, held⟩ .plan
        ⟨db, { held with plan := some (Retention.plan db policy coveredUntil now) }⟩
  | look {db : Db} {held : Held} {plan plan' : Retention.Plan} : held.plan = some plan →
      Retention.look db plan = .ok plan' →
      HoldStep ⟨db, held⟩ .look ⟨db, { held with plan := some plan' }⟩
  | abandonPlan {db : Db} {held : Held} :
      HoldStep ⟨db, held⟩ .abandonPlan ⟨db, { held with plan := none }⟩

/-- One committed transaction of the service. -/
inductive Sys.Step : Sys → Action → Sys → Prop
  | funds {db db' : Db} {held : Held} {a : FundsAction} : FundsStep held db a db' →
      Sys.Step ⟨db, held⟩ (.funds a) ⟨db', held⟩
  | report {db db' : Db} {held : Held} {a : ReportAction} : ReportStep db a db' →
      Sys.Step ⟨db, held⟩ (.report a) ⟨db', held⟩
  | observe {db db' : Db} {held : Held} {a : ObservationAction} : ObservationStep held db a db' →
      Sys.Step ⟨db, held⟩ (.observe a) ⟨db', held.observe a db db'⟩
  | work {db db' : Db} {held : Held} {a : WorkAction} : WorkStep db a db' →
      Sys.Step ⟨db, held⟩ (.work a) ⟨db', held⟩
  | hold {s s' : Sys} {a : HoldAction} : HoldStep s a s' → Sys.Step s (.hold a) s'
  | tick {db : Db} {held : Held} {time : Time} : db.clock ≤ time →
      Sys.Step ⟨db, held⟩ .tick ⟨{ db with clock := time }, held⟩

end TigPool
