/-
# `TigPool.CustodyObserver` — recording custody captures

`record` saves a capture, reads it again, opens the stream if it is the first, and then holds
the lock of the stream while each transfer of the capture is credited in a transaction of its
own; only then the batch, a check of the books and the new cursor are committed together.  So
receipts are committed while the cursor is still where it was, and the process can stop there.

A state is the service, the tables of the observer and what its processes are about to write.
The tables `chain_stream` and `chain_batches` stand here with all their columns; the service
only knows that a stream was opened.  A step is one committed transaction, or a failure, or a
crash; one process observes, so its transactions do not overlap.  Two captures of one identity
do not occur: the identity is a SHA-256 of the capture.

Captures do not stay for ever.  A retention run reads which of them to keep, and then blanks
the payloads of the others, as far as they were saved before its cutoff.
-/
import TigPool.CustodyReading
import TigPool.Service

namespace TigPool

open Basis

namespace CustodyObserver

open ChainObserver (CaptureData Verified verify)

/-! ## Tables -/

/-- A row of `chain_captures`.  When it expires, its payload is blanked; `data` is what it was. -/
structure CaptureRow where
  data : CaptureData
  createdAt : Time
  expired : Bool
deriving DecidableEq

/-- A row of `chain_batches`. -/
structure Batch where
  captureId : String
  firstHeight : ℕ
  lastHeight : ℕ
  blockHash : String
deriving DecidableEq

/-- What a check of a recorded batch compares. -/
structure Figures where
  height : ℕ
  targetHeight : ℤ
  blockHash : String
  actualTig : ℕ
  actualNative : ℕ
  recordedTig : ℤ
  recordedNative : ℤ
  outgoingNonce : ℕ
  accountedNonces : ℕ
  custodyCode : Json
deriving DecidableEq

/-- A row of `custody_checks`; a failed capture has no figures. -/
structure Check where
  captureId : String
  figures : Option Figures
  healthy : Bool
  reason : String
  checkedAt : Time
deriving DecidableEq

inductive AlertKind where
  | canonicalConflict
  | incompleteCapture
deriving DecidableEq

/-- A row of `chain_alerts`. -/
structure Alert where
  captureId : String
  kind : AlertKind
  reason : String
deriving DecidableEq

/-- The transaction that holds the lock `chain-stream`, and the transfers it has yet to see
credited. -/
structure Recording where
  identity : String
  value : Verified
  todo : List ConfirmedTransfer

/-- A retention run that has read which captures to keep, and has yet to expire the others. -/
structure Expiry where
  cutoff : Time
  keep : List String

structure State where
  sys : Sys
  captures : Table String CaptureRow
  stream : Option ChainStream
  /-- The newest first, here and below. -/
  batches : List Batch
  checks : List Check
  alerts : List Alert
  /-- Failures that are noticed and not written down yet. -/
  failures : List Alert
  recording : Option Recording
  expiring : List Expiry

/-! ## The checks of a batch -/

/-- What the service takes from a verified capture. -/
def toCapture (identity : String) (value : Verified) : ChainObserver.Capture where
  identity := identity
  network := value.network
  first := value.first
  last := value.last
  beforeHash := value.beforeHash
  blockHash := value.blockHash
  openingTig := value.opening.tig
  openingNative := value.opening.native
  openingNonce := value.opening.nonce
  custodyCode := match value.custodyCode with
    | .str code => code
    | _ => ""
  transfers := value.transfers

/-- Does the block lie in what the stream covers? -/
def covers (stream : ChainStream) (last height : ℕ) : Bool :=
  stream.startHeight ≤ height ∧ height ≤ last

/-- The custody sends that a transaction up to the height has paid. -/
def accounted (f : Funds) (stream : ChainStream) (value : Verified) : ℕ :=
  stream.startNonce + f.custodySends.count fun _ send =>
    send.sender = value.network.custody ∧ send.payment.any fun payment =>
      payment.chainId = value.network.chainId ∧
        (f.chainTransactions.lookup (payment.chainId, payment.txHash)).any fun transaction =>
          covers stream value.last transaction.blockNumber

/-- Has a transfer left custody that no payment explains? -/
def unexplained (f : Funds) (stream : ChainStream) (value : Verified) : Bool :=
  f.transfers.any fun event transfer =>
    transfer.sender = value.network.custody ∧ transfer.recipient ≠ value.network.custody ∧
      0 < transfer.amount ∧ covers stream value.last transfer.blockNumber ∧
      f.custodySends.any (fun _ send => send.payment.any (·.transferEvent = some event)) = false

/-- To whom the latest authorization up to the height has delegated the wallet. -/
def delegate (f : Funds) (value : Verified) : Option Address :=
  let found := f.custodySends.entries.filterMap fun entry =>
    entry.2.authorization.bind fun authorization =>
      if authorization.chainId = value.network.chainId ∧
          authorization.authority = value.network.custody ∧ entry.2.payment.isSome then
        (f.chainTransactions.lookup (authorization.chainId, authorization.txHash)).bind
          fun transaction => if transaction.blockNumber ≤ value.last then
            some (transaction.blockNumber, authorization.delegate) else none
      else none
  ((found.insertionSort fun a b => b.1 ≤ a.1).head?).map (·.2)

/-- Is the code of the wallet what the pool knows it to be? -/
def knownCode (f : Funds) (value : Verified) : Bool :=
  value.custodyCode = .str "0x" ∨ (delegate f value).any fun authorized =>
    match SponsoredWithdrawals.delegation value.custodyCode with
    | .ok found => found = some authorized
    | .error _ => false

def isConflict (alert : Alert) : Bool := alert.kind = .canonicalConflict

def figures (f : Funds) (stream : ChainStream) (value : Verified) : Figures where
  height := value.last
  targetHeight := value.target
  blockHash := value.blockHash
  actualTig := value.closing.tig
  actualNative := value.closing.native
  recordedTig := f.ledger.backing .TIG
  recordedNative := f.ledger.backing .NATIVE
  outgoingNonce := value.closing.nonce
  accountedNonces := accounted f stream value
  custodyCode := value.custodyCode

def healthy (f : Funds) (stream : ChainStream) (alerts : List Alert) (value : Verified) : Bool :=
  f.ledger.backing .TIG = value.closing.tig ∧ f.ledger.backing .NATIVE = value.closing.native ∧
    accounted f stream value = value.closing.nonce ∧ unexplained f stream value = false ∧
    alerts.any isConflict = false ∧ knownCode f value = true ∧ value.last = value.target

def reason (f : Funds) (stream : ChainStream) (alerts : List Alert) (value : Verified) : String :=
  if healthy f stream alerts value then "reconciled"
  else if value.last < value.target then "custody collection is catching up"
  else if knownCode f value = false then "custody delegation requires verified recovery"
  else "custody balances, transactions or canonical history require reconciliation"

/-! ## Failures -/

/-- `str(failure)` of an error of the pool; of any other its type. -/
def describe : Error → String
  | .funds message | .conflict message | .insufficientFunds message => message
  | e => ChainObserver.typeName e

/-- A failure while recording; two conflicts say that settled history has changed. -/
def failure (identity : String) (e : Error) : Alert where
  captureId := identity
  kind := if e = .conflict "recorded finalized custody anchor changed" ∨
      e = .conflict "recorded finalized custody transfer history changed" then .canonicalConflict
    else .incompleteCapture
  reason := describe e

/-- A capture that does not verify. -/
def incomplete (identity : String) (e : Error) : Alert where
  captureId := identity
  kind := .incompleteCapture
  reason := ChainObserver.typeName e

namespace State

variable (s : State)

/-- The database with the observer's tables in it. -/
def full : Db :=
  { s.sys.db with funds := { s.sys.db.funds with
      chainStream := s.stream, chainBatches := s.batches.map (·.captureId) } }

def withDb (db : Db) : State := { s with sys := { s.sys with db } }

/-- A failure ends the transaction that holds the lock. -/
def failed (alert : Alert) : State :=
  { s with failures := alert :: s.failures, recording := none }

/-- A failure is written down, in a transaction of its own. -/
def noted (alert : Alert) : State :=
  { s with
    alerts := alert :: s.alerts
    checks := ⟨alert.captureId, none, false, alert.reason, s.sys.db.clock⟩ :: s.checks }

/-- The batch is recorded, checked, and the cursor moved. -/
def recorded (db : Db) (stream : ChainStream) (identity : String) (value : Verified) : State :=
  { s.withDb db with
    checks := ⟨identity, some (figures db.funds stream value),
      healthy db.funds stream s.alerts value, reason db.funds stream s.alerts value,
      value.checkedAt⟩ :: s.checks
    batches := ⟨identity, value.first, value.last, value.blockHash⟩ :: s.batches
    stream := some { stream with lastHeight := value.last, lastHash := value.blockHash }
    recording := none }

/-- `SELECT id FROM chain_captures ORDER BY created_at DESC LIMIT 1` -/
def newest : Option String :=
  ((s.captures.entries.insertionSort fun a b => b.2.createdAt ≤ a.2.createdAt).head?).map (·.1)

/-- The captures that a retention run keeps. -/
def keep : List String :=
  s.alerts.map (·.captureId) ++ (s.sys.db.funds.openingBaseline.map (·.captureId)).toList ++
    s.newest.toList

/-- The recorded cutoff, past which a trigger of the table lets nothing expire. -/
def captureCutoff : Time := s.sys.db.observation.archive.retentionFloors.captureCutoff

/-- May the run expire the capture? -/
def expirable (run : Expiry) (identity : String) (row : CaptureRow) : Bool :=
  row.expired = false ∧ row.createdAt ≤ run.cutoff ∧ identity ∉ run.keep ∧
    row.createdAt ≤ s.captureCutoff

/-- The captures with the payloads of some blanked. -/
def expire (identities : List String) : State :=
  { s with
    captures := Table.mapVals (fun identity row =>
      if identity ∈ identities then { row with expired := true } else row) s.captures }

/-- `status(database)['ready']` -/
def ready : Bool :=
  s.stream.isSome ∧ s.checks.head?.any fun latest =>
    latest.healthy ∧ seconds (-5) ≤ s.sys.db.clock - latest.checkedAt ∧
      s.sys.db.clock - latest.checkedAt ≤ seconds 120 ∧ latest.figures.any fun f =>
        f.recordedTig = s.sys.db.funds.ledger.backing .TIG ∧
          f.recordedNative = s.sys.db.funds.ledger.backing .NATIVE

/-- What the observer answers to the transactions of the service. -/
def around (pilot : Result Unit) (hostClock : Time) : Surroundings where
  custodyInitialized := s.stream.isSome
  custodyReady := s.ready
  pilot := pilot
  hostClock := hostClock

end State

/-! ## Steps -/

inductive Act where
  /-- A transaction of the service. -/
  | service (action : Action)
  | save (data : CaptureData)
  | refuse (data : CaptureData)
  /-- `record` with `initialize`, where there is no stream yet. -/
  | start (data : CaptureData)
  /-- The capture is the next one; the transaction that holds the lock goes on with it. -/
  | take (data : CaptureData)
  | receipt (transfer : ConfirmedTransfer)
  | finish
  | fail (identity : String) (e : Error)
  | note
  | crash
  /-- A retention run reads which captures to keep. -/
  | keep
  /-- A batch of captures expires. -/
  | expire (identities : List String)

/-- Transactions about the stream are the observer's own. -/
def ofService : Action → Bool
  | .funds .initializeStream | .funds .advance => false
  | _ => true

/-- The identity under which a capture is saved. -/
abbrev Digest := CaptureData → String

variable (digest : Digest)

/-- The capture was saved, under its identity. -/
def Saved (captures : Table String CaptureRow) (data : CaptureData) : Prop :=
  ∃ row, captures.lookup (digest data) = some row ∧ row.data = data

/-- `read(database, identity)` -/
def State.read (s : State) (identity : String) : Result CaptureData := do
  let row ← fetch (s.captures.lookup identity) (.funds "unknown custody capture")
  require (row.expired = false)
    (.funds "custody capture payload expired under the retention policy")
  require (digest row.data = identity) (.conflict "custody archive checksum differs")
  return row.data

inductive Step : State → Act → State → Prop
  | service {s : State} {action : Action} {sys : Sys} : ofService action = true →
      Sys.Step s.sys action sys → Step s (.service action) { s with sys }
  | save {s : State} {data : CaptureData} : s.captures.lookup (digest data) = none →
      Step s (.save data) { s with
        captures := AList.insert (digest data) ⟨data, s.sys.db.clock, false⟩ s.captures }
  | refuse {s : State} {data : CaptureData} {e : Error} : Saved digest s.captures data →
      verify data = .error e → Step s (.refuse data)
        { s with failures := incomplete (digest data) e :: s.failures }
  | start {s : State} {data : CaptureData} {value : Verified} {explicitStart : Bool}
      {actor why : String} {db : Db} : Saved digest s.captures data → verify data = .ok value →
      s.recording = none → s.stream = none →
      ChainObserver.initializeStream s.sys.db (toCapture (digest data) value) explicitStart actor
        why = .ok db →
      Step s (.start data) { s.withDb db with stream := db.funds.chainStream }
  | startFails {s : State} {data : CaptureData} {value : Verified} {explicitStart : Bool}
      {actor why : String} {e : Error} : Saved digest s.captures data → verify data = .ok value →
      s.recording = none → s.stream = none →
      ChainObserver.initializeStream s.sys.db (toCapture (digest data) value) explicitStart actor
        why = .error e →
      Step s (.fail (digest data) e) (s.failed (failure (digest data) e))
  | take {s : State} {data : CaptureData} {value : Verified} : Saved digest s.captures data →
      verify data = .ok value → s.recording = none →
      ChainObserver.checkBatch s.full (toCapture (digest data) value) = .ok .next →
      Step s (.take data) { s with recording := some ⟨digest data, value, value.transfers⟩ }
  | takeFails {s : State} {data : CaptureData} {value : Verified} {e : Error} :
      Saved digest s.captures data → verify data = .ok value → s.recording = none →
      s.stream.isSome →
      ChainObserver.checkBatch s.full (toCapture (digest data) value) = .error e →
      Step s (.fail (digest data) e) (s.failed (failure (digest data) e))
  | receipt {s : State} {identity : String} {value : Verified} {transfer : ConfirmedTransfer}
      {todo : List ConfirmedTransfer} {db : Db} :
      s.recording = some ⟨identity, value, transfer :: todo⟩ →
      ChainObserver.recordTransfer s.sys.db transfer = .ok db →
      Step s (.receipt transfer) { s.withDb db with recording := some ⟨identity, value, todo⟩ }
  | receiptFails {s : State} {identity : String} {value : Verified}
      {transfer : ConfirmedTransfer} {todo : List ConfirmedTransfer} {e : Error} :
      s.recording = some ⟨identity, value, transfer :: todo⟩ →
      ChainObserver.recordTransfer s.sys.db transfer = .error e →
      Step s (.fail identity e) (s.failed (failure identity e))
  | finish {s : State} {identity : String} {value : Verified} {stream : ChainStream} {db : Db} :
      s.recording = some ⟨identity, value, []⟩ → s.stream = some stream →
      Custody.bind s.sys.db value.network = .ok db →
      Step s .finish (s.recorded db stream identity value)
  | finishFails {s : State} {identity : String} {value : Verified} {e : Error} :
      s.recording = some ⟨identity, value, []⟩ →
      Custody.bind s.sys.db value.network = .error e →
      Step s (.fail identity e) (s.failed (failure identity e))
  | note {s : State} {alert : Alert} : alert ∈ s.failures → Step s .note (s.noted alert)
  | crash {s : State} : Step s .crash { s with recording := none }
  | keep {s : State} {plan : Retention.Plan} : plan ∈ s.sys.held.targets → Step s .keep
      { s with expiring := ⟨min plan.captureCutoff plan.coveredUntil, s.keep⟩ :: s.expiring }
  | expire {s : State} {run : Expiry} {identities : List String} : run ∈ s.expiring →
      (∀ identity ∈ identities,
        (s.captures.lookup identity).any (s.expirable run identity) = true) →
      Step s (.expire identities) (s.expire identities)

/-- Before anything is observed. -/
structure Initial (s : State) : Prop where
  sys : Sys.Initial s.sys
  captures : s.captures = ∅
  stream : s.stream = none
  batches : s.batches = []
  checks : s.checks = []
  alerts : s.alerts = []
  failures : s.failures = []
  recording : s.recording = none
  expiring : s.expiring = []

/-- The states that runs reach, in any order of steps. -/
def Reached (s : State) : Prop :=
  ∃ s₀, Initial s₀ ∧ Leads (Step digest) (fun _ _ => True) s₀ s

end CustodyObserver

end TigPool
