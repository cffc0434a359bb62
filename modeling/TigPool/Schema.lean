/-
# `TigPool.Schema` — the tables of the pool

One structure per table of `migrations/`, with the columns the modelled
operations read, and `Db`, the database as a transaction finds it.  Three
conventions keep the rows close to the SQL and still easy to reason about.

* A table whose primary key is also a foreign key — the attribution of a
  transfer, the outcome of an attempt, the payment of a custody send — is an
  optional column of the table it refers to.  That the referenced row exists and
  that there is at most one such record per row then needs no proof.
* A journal is named by its event key, which is as unique as its `uuid`.  Account
  names and event keys are constructors where the service formats a string:
  `collateral:<id>` is `.collateral id`, `reservation:<id>:fee` is `.fee id`.
* A fingerprint is the value it was taken of (see `TigPool.Json`).

Times are integers, in microseconds.
-/
import TigPool.Basis.Postings
import TigPool.Money

namespace TigPool

open Basis

abbrev Uuid := String
abbrev Address := String
abbrev Time := ℤ

def seconds (n : ℤ) : Time := n * 1000000
def days (n : ℤ) : Time := seconds (n * 86400)

/-! ## The ledger -/

inductive Asset where
  | TIG
  | NATIVE
deriving DecidableEq

inductive Location where
  | custody
  | protocol
deriving DecidableEq

inductive AccountKind where
  | member
  | collateral
  | withdrawal
  | operator
  | operatorCommitment
  | round
  | unattributed
  | external
deriving DecidableEq

inductive AccountId where
  /-- `member:<id>:available` -/
  | available (member : Uuid)
  /-- `collateral:<id>` -/
  | collateral (reservation : Uuid)
  /-- `operator:commitment:<id>` -/
  | commitment (reservation : Uuid)
  /-- `withdrawal:<id>` -/
  | withdrawal (identity : Uuid)
  /-- `withdrawal-gas:<id>` -/
  | withdrawalGas (attempt : Uuid)
  /-- `operator:topup:<id>:<asset>` -/
  | topup (identity : Uuid) (asset : Asset)
  /-- `round:<n>` -/
  | round (number : ℕ)
  /-- `operator:<location>:<asset>` -/
  | operator (location : Location) (asset : Asset)
  /-- `external:<location>:<asset>` -/
  | external (location : Location) (asset : Asset)
  /-- `unattributed:TIG` -/
  | unattributed
deriving DecidableEq

structure Account where
  kind : AccountKind
  asset : Asset
  location : Location
  balance : ℤ
deriving DecidableEq

/-- A token event, identified by `chain_id:token:tx_hash:log_index`. -/
structure EventId where
  chainId : ℕ
  token : Address
  txHash : String
  logIndex : ℕ
deriving DecidableEq

inductive EventKey where
  /-- `reservation:<id>:reserve` -/
  | reserve (reservation : Uuid)
  /-- `reservation:<id>:fee` -/
  | fee (reservation : Uuid)
  /-- `reservation:<id>:return` -/
  | collateralReturn (reservation : Uuid)
  /-- `reservation:<id>:unhanded-return` -/
  | unhandedReturn (reservation : Uuid)
  /-- `collateral:<id>:finalize` -/
  | finalize (reservation : Uuid)
  /-- `receipt:<event>` -/
  | receipt (event : EventId)
  /-- `attribute:<event>` -/
  | attribution (event : EventId)
  /-- `round:<n>:reimburse` -/
  | reimburse (round : ℕ)
  /-- `round:<n>:settle` -/
  | settle (round : ℕ)
  /-- `withdrawal:<id>:reserve` -/
  | withdrawalReserve (identity : Uuid)
  /-- `withdrawal:<id>:release` -/
  | withdrawalRelease (identity : Uuid)
  /-- `withdrawal-attempt:<id>:gas` -/
  | attemptGas (attempt : Uuid)
  /-- `withdrawal-attempt:<id>:reconcile` -/
  | attemptReconcile (attempt : Uuid)
  /-- `topup:<id>:reserve` -/
  | topupReserve (identity : Uuid)
  /-- `topup:<id>:cash` -/
  | topupCash (identity : Uuid)
  /-- `topup:<id>:protocol` -/
  | topupProtocol (identity : Uuid)
  /-- `custody-opening:<capture>:<asset>` -/
  | custodyOpening (capture : String) (asset : Asset)
  /-- `protocol-opening:<source>` -/
  | protocolOpening (source : String)
  /-- `mainnet-prelaunch-topup:<id>` -/
  | mainnetPrelaunch (topup : String)
  /-- `native-receipt:<chain>:<tx>` -/
  | nativeReceipt (chainId : ℕ) (txHash : String)
  /-- `native-internal-receipt:<chain>:<tx>:<path>` -/
  | nativeInternalReceipt (chainId : ℕ) (txHash : String) (path : List ℕ)
  /-- The key an operator chooses for a correction. -/
  | correction (text : String)
deriving DecidableEq

structure Journal where
  kind : String
  amounts : Movements AccountId
  details : Json
  reverses : Option EventKey
deriving DecidableEq

structure Ledger where
  accounts : Table AccountId Account
  journals : Table EventKey Journal

/-! ## Members and reservations -/

structure Member where
  wallet : Address
  withdrawalWallet : Address
  multiplier : Multiplier
  multiplierRevision : ℕ
  lastPaidAt : Option Time
deriving DecidableEq

structure MultiplierChange where
  oldValue : Multiplier
  newValue : Multiplier
  actor : String
  reason : String
  eventKey : String
deriving DecidableEq

inductive Resource where
  | CPU
  | GPU
deriving DecidableEq

inductive ReservationState where
  | reserved
  | uncertain
  | accepted
  | rejected
  | cancelled
  | active
  | verificationFailed
  | expired
deriving DecidableEq

inductive CollateralOutcome where
  | returned
  | forfeited
deriving DecidableEq

structure CollateralFinalization where
  outcome : CollateralOutcome
  amount : ℕ
  reportSealId : Uuid
deriving DecidableEq

structure Reservation where
  memberId : Uuid
  requestKey : String
  requestHash : Json
  creationRound : ℕ
  resource : Resource
  baseAmount : ℕ
  multiplier : Multiplier
  multiplierRevision : ℕ
  amount : ℕ
  selection : Json
  payload : Json
  payloadText : Option Json
  offerExpiresAt : Time
  feeLimit : ℕ
  feeActual : Option ℕ := none
  state : ReservationState := .reserved
  slotHeld : Bool := true
  collateralOutcome : Option CollateralOutcome := none
  benchmarkId : Option String := none
  assignment : Option Json := none
  assignmentDigest : Option Json := none
  handedOverAt : Option Time := none
  activeAtHeight : Option ℕ := none
  createdAt : Time
  /-- The row of `collateral_finalizations`. -/
  finalization : Option CollateralFinalization := none
deriving DecidableEq

inductive ReservationEventKind where
  | reserved
  | potentiallySent
  | accepted
  | rejected
  | cancelled
  | unhandedReturned
  | handedOver
  | active
  | verificationFailed
  | expired
  | collateralFinalized
deriving DecidableEq

structure ReservationEvent where
  details : Json
  createdAt : Time
deriving DecidableEq

/-! ## Custody -/

structure Network where
  chainId : ℕ
  token : Address
  custody : Address
  confirmations : ℕ
  decimals : ℕ
  requireFinalized : Bool
deriving DecidableEq

/-- What the chain adapter has verified about a token event. -/
structure ConfirmedTransfer where
  network : Network
  txHash : String
  logIndex : ℕ
  blockNumber : ℕ
  blockHash : String
  blockTimestamp : Time
  sender : Address
  recipient : Address
  amount : ℕ
  evidence : Json
deriving DecidableEq

/-- An event as journals and frozen inputs write it down. -/
def EventId.json (event : EventId) : Json :=
  .arr [.int event.chainId, .str event.token, .str event.txHash, .int event.logIndex]

def ConfirmedTransfer.eventId (transfer : ConfirmedTransfer) : EventId where
  chainId := transfer.network.chainId
  token := transfer.network.token
  txHash := transfer.txHash
  logIndex := transfer.logIndex

/-- What the chain adapter has verified about a transaction. -/
structure ConfirmedTransaction where
  network : Network
  txHash : String
  sender : Address
  recipient : Option Address
  nonce : ℕ
  successful : Bool
  value : ℕ
  fee : ℕ
  feeModel : String
  blockNumber : ℕ
  blockHash : String
  blockTimestamp : Time
  evidence : Json
deriving DecidableEq

/-- What the chain adapter has read before a payment is prepared. -/
structure CustodyPreflight where
  network : Network
  nonce : ℕ
  tokenBalance : ℤ
  nativeBalance : ℤ
  blockNumber : ℕ
  checkedAt : Time
  evidence : Json
deriving DecidableEq

/-- A verified payment in which somebody else sent the outer transaction. -/
structure SponsoredWithdrawal where
  transaction : ConfirmedTransaction
  transfer : ConfirmedTransfer
  custodyNonce : ℕ
  delegate : Address
  evidence : Json
deriving DecidableEq

structure CustodyIdentity where
  chainId : ℕ
  token : Address
  wallet : Address
  decimals : ℕ
deriving DecidableEq

structure TransferAttribution where
  destination : AccountId
  actor : String
  evidence : Json
deriving DecidableEq

structure RoundReceipt where
  round : ℕ
  amount : ℕ
  evidence : Json
deriving DecidableEq

structure Transfer where
  blockNumber : ℕ
  blockHash : String
  blockTimestamp : Time
  sender : Address
  recipient : Address
  amount : ℕ
  evidence : Json
  attribution : Option TransferAttribution := none
  roundReceipt : Option RoundReceipt := none
deriving DecidableEq

structure ChainTransaction where
  sender : Address
  recipient : Option Address
  nonce : ℕ
  successful : Bool
  value : ℕ
  fee : ℕ
  feeModel : String
  blockNumber : ℕ
  blockHash : String
  blockTimestamp : Time
  evidence : Json
deriving DecidableEq

inductive SendKind where
  | withdrawal
  | protocolTopup
deriving DecidableEq

structure CustodyPayment where
  chainId : ℕ
  txHash : String
  transferEvent : Option EventId
  fee : ℕ
  journal : EventKey
deriving DecidableEq

structure AuthorizationPayment where
  chainId : ℕ
  txHash : String
  authority : Address
  nonce : ℕ
  delegate : Address
  actor : String
  reason : String
deriving DecidableEq

structure CustodySend where
  chainId : ℕ
  sender : Address
  nonce : ℕ
  kind : SendKind
  payment : Option CustodyPayment := none
  authorization : Option AuthorizationPayment := none
deriving DecidableEq

/-! ## Withdrawals -/

inductive WithdrawalKind where
  | member
  | operator
deriving DecidableEq

inductive WithdrawalState where
  | requested
  | approved
  | uncertain
  | paid
  | rejected
  | cancelled
deriving DecidableEq

structure WithdrawalReview where
  chainId : ℕ
  token : Address
  sender : Address
  feeModel : String
  confirmations : ℕ
  actor : String
  evidence : Json
deriving DecidableEq

structure Withdrawal where
  memberId : Option Uuid
  kind : WithdrawalKind
  requestKey : String
  amount : ℕ
  recipient : Address
  operatorReserve : Option ℕ
  state : WithdrawalState := .requested
  paidEvent : Option EventId := none
  createdAt : Time
  review : Option WithdrawalReview := none
deriving DecidableEq

inductive AttemptOutcome where
  | paid
  | failed
  | cancelled
deriving DecidableEq

structure WithdrawalAttemptOutcome where
  chainId : ℕ
  txHash : String
  outcome : AttemptOutcome
  fee : ℕ
deriving DecidableEq

structure WithdrawalAttempt where
  withdrawalId : Uuid
  requestKey : String
  chainId : ℕ
  sender : Address
  nonce : ℕ
  feeLimit : ℕ
  actor : String
  /-- The block number recorded in the preflight. -/
  preflightBlock : ℕ
  sentAt : Time
  outcome : Option WithdrawalAttemptOutcome := none
deriving DecidableEq

structure WithdrawalEvent where
  withdrawalId : Uuid
  kind : String
  actor : String
  details : Json
deriving DecidableEq

/-! ## The protocol fee balance -/

inductive TopupState where
  | uncertain
  | awaitingProtocol
  | credited
  | failed
  | cancelled
deriving DecidableEq

/-- A top-up that TIG reports as confirmed. -/
structure ConfirmedTopup where
  txHash : String
  logIndex : ℕ
  amount : ℕ
  height : ℕ
deriving DecidableEq

/-- What a complete funding capture shows. -/
structure FundingSnapshot where
  playerId : Address
  height : ℕ
  recipient : Address
  minimum : ℕ
  available : ℤ
  /-- The confirmed top-ups by their TIG identity. -/
  topups : Table String ConfirmedTopup

structure FundingCapture where
  playerId : Address
  apiOrigin : Option String
  /-- The chain and the token in the first and in the last block captured. -/
  erc20 : List (String × Address)
  /-- Each top-up of the player, and whether TIG has confirmed it. -/
  rawTopups : List (String × Bool)
  /-- What `verify` makes of the capture; nothing if it is incomplete. -/
  snapshot : Option FundingSnapshot
  checkedAt : Time
  createdAt : Time

structure TopupFact where
  playerId : Address
  facts : ConfirmedTopup
deriving DecidableEq

structure TopupCredit where
  topupId : String
  captureId : String
  transferEvent : EventId
deriving DecidableEq

structure ProtocolTopup where
  requestKey : String
  amount : ℕ
  feeLimit : ℕ
  network : Network
  recipient : Address
  feeModel : String
  policyCapture : String
  /-- The block number recorded in the preflight. -/
  preflightBlock : ℕ
  actor : String
  state : TopupState
  sentAt : Time
  credit : Option TopupCredit := none
deriving DecidableEq

/-- The row of `chain_stream`: how far the custody observer has got. -/
structure ChainStream where
  network : Network
  startHeight : ℕ
  lastHeight : ℤ
  lastHash : String
  startNonce : ℕ
deriving DecidableEq

structure OpeningBaseline where
  captureId : String
  tig : ℕ
  native : ℕ
  actor : String
  reason : String
deriving DecidableEq

structure ProtocolOpeningCredit where
  playerId : Address
  captureId : String
  amount : ℕ
  actor : String
deriving DecidableEq

structure MainnetOpeningCredit where
  playerId : Address
  captureId : String
  txHash : String
  logIndex : ℕ
  amount : ℕ
  baseBlock : ℕ
  baseHash : String
  actor : String
  reason : String
deriving DecidableEq

structure NativeInternalReceipt where
  sender : Address
  recipient : Address
  amount : ℕ
  actor : String
deriving DecidableEq

/-! ## Rounds -/

structure RoundReimbursement where
  amount : ℕ
deriving DecidableEq

structure MissingBlockPolicy where
  policy : String
  revision : ℕ
  maxMissingPerRound : ℕ
  warnMissingPerRound : ℕ
deriving DecidableEq

/-- The frozen inputs of a settlement. -/
structure SettlementInputs where
  round : ℕ
  rule : String
  reportSealId : Uuid
  credits : List (String × ℚ)
  receipts : List (EventId × ℕ)
  costReimbursement : ℕ
  forfeitures : List (Uuid × ℕ)
  expectedReceivedNet : ℕ
  missingHeights : List ℕ
  waivedHeights : List ℕ
  missingBlockPolicy : String
  policyRevision : ℕ
  maxMissingPerRound : ℕ
deriving DecidableEq

structure RoundSettlement where
  rule : String
  inputs : SettlementInputs
  pot : ℤ
  operatorAllocation : ℤ
  memberAllocations : List (String × ℤ)
deriving DecidableEq

structure RoundEarnings where
  expectedReceivedNet : ℕ
  withheldOperatingCost : ℕ
  blockId : String
  evidence : Json
  reimbursement : Option RoundReimbursement := none
  settlement : Option RoundSettlement := none
deriving DecidableEq

/-- The tables that decide where the money is. -/
structure Funds where
  ledger : Ledger
  members : Table Uuid Member
  multiplierChanges : Table (Uuid × ℕ) MultiplierChange
  reservations : Table Uuid Reservation
  protocolIdentity : Option Address
  custodyIdentity : Option CustodyIdentity
  transfers : Table EventId Transfer
  chainTransactions : Table (ℕ × String) ChainTransaction
  custodySends : Table Uuid CustodySend
  withdrawals : Table Uuid Withdrawal
  withdrawalAttempts : Table Uuid WithdrawalAttempt
  protocolTopups : Table Uuid ProtocolTopup
  fundingCaptures : Table String FundingCapture
  topupFacts : Table String TopupFact
  fundingAlerts : List String
  chainStream : Option ChainStream
  chainBatches : List String
  openingBaseline : Option OpeningBaseline
  protocolOpeningCredits : Table String ProtocolOpeningCredit
  mainnetOpeningCredits : Table String MainnetOpeningCredit
  nativeInternalReceipts : Table (ℕ × String × List ℕ) NativeInternalReceipt
  roundEarnings : Table ℕ RoundEarnings

/-! ## Work, reports and observations -/

inductive IntentKind where
  | precommit
  | results
  | proofs
deriving DecidableEq

inductive IntentState where
  | ready
  | uncertain
  | accepted
  | rejected
  | cancelled
deriving DecidableEq

/-- What a coordinator read from TIG just before a precommit. -/
structure Preflight where
  blockId : Option Json
  height : Option Json
  observedAt : ℤ
  seenBenchmarks : List String
deriving DecidableEq

structure ProtocolIntent where
  reservationId : Uuid
  kind : IntentKind
  payload : Json
  payloadText : Json
  digest : Json
  state : IntentState := .ready
  sentAt : Option Time := none
  evidence : Option Json := none
  matchKey : Option Json := none
  preflight : Option Preflight := none
  createdAt : Time
deriving DecidableEq

structure PrecommitReceipt where
  benchmarkId : String
  evidence : Json
deriving DecidableEq

structure SubmissionResponse where
  outboxId : Uuid
  response : Json
  createdAt : Time
deriving DecidableEq

inductive RequestState where
  | queued
  | reserved
  | expired
deriving DecidableEq

/-- The resource family that a verification compute type belongs to. -/
def computeFamily (computeType : String) : Option Resource :=
  if computeType ∈ ["aws_t3", "aws_t3a", "aws_t4g", "aws_c7i", "aws_c7a", "aws_c7g", "aws_m7i",
      "aws_m7a", "aws_m7g"] then some .CPU
  else if computeType = "aws_g4dn" then some .GPU
  else none

/-- A compute offer, of one compatible verification compute type; its workers may span
member-managed machines. -/
structure Offer where
  resource : Resource
  computeType : String
  workers : ℕ
  family : computeFamily computeType = some resource
  capacity : 1 ≤ workers ∧ workers ≤ 4096
deriving DecidableEq

structure WorkRequest where
  memberId : Uuid
  requestKey : String
  offer : Offer
  state : RequestState
  expiresAt : Time
  reservationId : Option Uuid
deriving DecidableEq

structure ReservationBinary where
  sha256 : String
  sourceUrl : String
  /-- A row of `reservation_binaries`; otherwise one of `reservation_archives`. -/
  direct : Bool
deriving DecidableEq

structure BenchmarkPayload where
  digest : Json
  payload : Json
deriving DecidableEq

structure BenchmarkProgress where
  sampledNonces : Json
  evidence : Json
deriving DecidableEq

structure SpendingCap where
  eventKey : String
  windowSeconds : ℕ
  tigFeeWindowUnits : ℕ
  tigFeeAttemptUnits : ℕ
  nativeFeeWindowUnits : ℕ
  nativeFeeAttemptUnits : ℕ
  actor : String
  reason : String
  createdAt : Time
deriving DecidableEq

/-- The tables about work for members and submissions to TIG. -/
structure Work where
  reservationEvents : Table (Uuid × ReservationEventKind) ReservationEvent
  workRequests : Table Uuid WorkRequest
  reservationBinaries : Table Uuid ReservationBinary
  protocolOutbox : Table Uuid ProtocolIntent
  precommitReceipts : Table Uuid PrecommitReceipt
  submissionResponses : Table Uuid SubmissionResponse
  benchmarkPayloads : Table (String × IntentKind) BenchmarkPayload
  benchmarkProgress : Table String BenchmarkProgress
  withdrawalEvents : Table String WithdrawalEvent
  spendingCaps : Table Uuid SpendingCap
  newWorkPaused : Bool

structure ReportScope where
  reportingRounds : List ℤ
  adapterVersion : String
  evidence : Json
deriving DecidableEq

structure ReportCapture where
  reportingRound : ℕ
  blockId : String
  inputDigest : Json
  payload : Json
  metadata : Json
  complete : Bool
  error : Option String
  /-- The position among all captures: a later row was created later. -/
  createdAt : ℕ
  expiredAt : Option Time := none
deriving DecidableEq

inductive ArbitrationResult where
  | nonreproducible
  | reproducible
  | inconclusive
deriving DecidableEq

structure ConfirmedArbitration where
  result : ArbitrationResult
  confirmedHeight : ℕ
deriving DecidableEq

structure ConfirmedReport where
  reportingRound : ℕ
  benchmarkId : String
  benchmarker : String
  nonce : ℕ
  confirmedHeight : ℕ
  arbitration : Option ConfirmedArbitration := none
deriving DecidableEq

structure ReportIndexCapture where
  reportingRound : ℕ
  blockId : String
  playerId : String
  challengeId : String
  inputDigest : Json
  complete : Bool
  error : Option String
deriving DecidableEq

structure BenchmarkReportingRound where
  creationRound : ℕ
  reportingRound : ℕ
deriving DecidableEq

/-- A report as a seal freezes it: its details and the arbitrated result. -/
structure SealedReport where
  benchmarkId : String
  benchmarker : String
  nonce : ℕ
  round : ℕ
  result : Option ArbitrationResult
deriving DecidableEq

structure ReportSeal where
  creationRound : ℕ
  blockId : String
  captureIds : List Uuid
  reports : List (String × SealedReport)
deriving DecidableEq

/-- The tables about reports and arbitrations. -/
structure Reports where
  scopes : Table ℕ ReportScope
  captures : Table Uuid ReportCapture
  confirmed : Table String ConfirmedReport
  indexCaptures : Table Uuid ReportIndexCapture
  reportingRounds : Table String BenchmarkReportingRound
  seals : Table Uuid ReportSeal

structure BenchmarkCredit where
  benchmarkId : String
  memberId : Uuid
  credit : ℚ
deriving DecidableEq

structure CreditedBlock where
  playerId : String
  rule : String
  ownershipDigest : List (String × Uuid)
  total : ℚ
  /-- The rows of `benchmark_credits` for the block. -/
  credits : List BenchmarkCredit
deriving DecidableEq

/-- One active bundle of a benchmark: its place in the array of active qualities. -/
structure Bundle where
  benchmarkId : String
  activeIndex : ℕ
  playerId : String
  challengeId : String
  algorithmId : String
  trackId : String
  quality : ℤ
deriving DecidableEq

/-- Player, challenge, algorithm and track: bundles compete within a group. -/
abbrev Group := String × String × String × String

def Bundle.group (bundle : Bundle) : Group :=
  (bundle.playerId, bundle.challengeId, bundle.algorithmId, bundle.trackId)

/-- The validated `Snapshot` of a block, as far as credit is concerned, and the feeds. -/
structure BlockSnapshot where
  bundles : List Bundle
  qualifiers : Table Group ℕ
  /-- The player behind each active benchmark. -/
  precommits : Table String String
  /-- What each player's feed says, active or pending. -/
  feeds : Table String Json

structure ObservedBlock where
  height : ℕ
  previousId : String
  round : ℕ
  timestamp : ℤ
  blocksPerRound : ℕ
  semanticDigest : String
  attemptId : Uuid
  capturedAt : Time
  /-- What the capture validates as. -/
  snapshot : BlockSnapshot
  credited : Option CreditedBlock := none

structure ObservationStream where
  launchHeight : ℕ
  contiguousHeight : ℤ
  latestSeenHeight : ℤ
deriving DecidableEq

/-- An alert of kind `conflicting-block` and when a resolution of it was recorded. -/
structure ConflictAlert where
  height : ℕ
  blockId : String
  /-- The neighbour to which the captured block does not link; nothing if the capture
  differs from what is saved at its own height or under its own id. -/
  neighbor : Option String
  resolvedAt : Option Time
deriving DecidableEq

def ConflictAlert.resolved (alert : ConflictAlert) : Bool :=
  alert.resolvedAt.isSome

structure GapWaiver where
  roundNumber : ℕ
  actor : String
  reason : String
  evidence : Json
deriving DecidableEq

structure CaptureAttempt where
  blockId : Option String
  height : Option ℕ
  /-- The digests of all chunks on which the manifest depends. -/
  references : List String
  /-- The capture is incomplete or in conflict. -/
  failed : Bool
  createdAt : Time
  /-- The player that the capture names as the pool's. -/
  poolPlayer : Option String := none
  /-- The capture is kept as one compact projection, not as the full network. -/
  compactRef : Bool := false
  /-- A tombstone has taken the place of the manifest. -/
  expired : Bool := false
deriving DecidableEq

structure CompactCopy where
  playerId : String
  createdAt : Time
  expired : Bool := false
deriving DecidableEq

structure RetentionFloors where
  blockHeight : ℤ
  captureCutoff : Time
deriving DecidableEq

/-- The tables that hold the evidence for blocks. -/
structure Archive where
  captureAttempts : Table Uuid CaptureAttempt
  observationChunks : List String
  /-- The height up to which a chunk was in use that the newest block does not use. -/
  chunkLastRef : Table String ℕ
  compactBlockCopies : Table String CompactCopy
  reconciledBlocks : List String
  retentionFloors : RetentionFloors

/-- The tables about observed blocks. -/
structure Observation where
  stream : Option ObservationStream
  blocks : Table String ObservedBlock
  conflicts : List ConflictAlert
  gapWaivers : Table ℕ GapWaiver
  /-- The revisions of the missing-block policy, the latest first. -/
  policies : List MissingBlockPolicy
  archive : Archive

/-- The database, and the time its clock shows. -/
structure Db where
  funds : Funds
  work : Work
  reports : Reports
  observation : Observation
  clock : Time

end TigPool
