/-
# `TigPool.Reconciler` — what saved blocks say about accepted work

A reconciler replays saved blocks.  For each accepted reservation it looks at what the pool's
feed in that block shows of the benchmark, and records an outcome: a confirmed fraud is a failed
verification, a confirmed proof of a benchmark that is active in the block makes the reservation
active, and work of which the feed shows nothing at all may expire once its lifetime has passed.
Between any two of its transactions others may come, and what it has read is as it was.  What it
replays is what was kept with the capture of the block, and has the block's digest.

The texts of `datetime.fromisoformat`, SHA-256 and the digest of a value are parameters.
-/
import TigPool.Replays
import TigPool.Uploads

namespace TigPool

open Basis

namespace Reconciliation

/-! ## Feeds -/

/-- What a feed shows, by benchmark. -/
structure Feed where
  precommits : Table String Json
  benchmarks : Table String Json
  proofs : Table String Json
  frauds : Table String Json

def incompleteFeed : Error := .protocolData "pool benchmark feed is incomplete"

/-- The feed of a player, active or pending. -/
def feedOf (observation : Json) (playerId : String) : Option Json :=
  match (observation.get? "players").bind (·.get? playerId) with
  | some feed => some feed
  | none =>
      if observation.get? "pool_player_id" = some (.str playerId) then
        observation.get? "pool_pending"
      else none

def feedRows (feed : Json) (name key : String) : Result (Table String Json) := do
  let rows ← fetch (feed.get? name) incompleteFeed
  Protocol.index (some rows) key name

def checkPlayer (playerId : String) (row : Json) : Result Unit := do
  let owner ← fetch ((row.get? "settings").bind (·.get? "player_id")) incompleteFeed
  require (owner = .str playerId)
    (.protocolData "pool precommit feed contains another owner")

/-- `player_feed` -/
def playerFeed (observation : Json) (playerId : String) : Result Feed := do
  let feed ← fetch ((feedOf observation playerId).filter (·.isObject))
    (.protocolData "this block did not capture the pool's pending/active benchmark feed")
  let precommits ← feedRows feed "precommits" "benchmark_id"
  let benchmarks ← feedRows feed "benchmarks" "id"
  let proofs ← feedRows feed "proofs" "benchmark_id"
  let frauds ← feedRows feed "frauds" "benchmark_id"
  (precommits.entries.map fun e => e.2).forM (checkPlayer playerId)
  return { precommits, benchmarks, proofs, frauds }

/-- Does the feed show a record of the benchmark? -/
def Feed.shows (feed : Feed) (benchmarkId : String) : Bool :=
  benchmarkId ∈ feed.precommits ∨ benchmarkId ∈ feed.benchmarks ∨ benchmarkId ∈ feed.proofs ∨
    benchmarkId ∈ feed.frauds

/-- Was the record confirmed, at the observed height or before? -/
def confirmed (record : Option Json) (height : ℕ) : Result Bool :=
  match record.bind (·.get? "state") with
  | none | some .null => .ok false
  | some state => do
      let value ← Protocol.integer (some (← Protocol.field state "block_confirmed"))
        "protocol confirmation" 1
      require (value ≤ height)
        (.protocolData "protocol record was confirmed after the observed block")
      return true

/-! ## Verdicts -/

inductive Verdict where
  | failed
  | proven
  /-- The feed shows nothing of the benchmark. -/
  | absent
  | unsettled
deriving DecidableEq

def verdict (feed : Feed) (height : ℕ) (benchmarkId : String) : Result Verdict := do
  if ← confirmed (feed.frauds.lookup benchmarkId) height then
    return .failed
  else if ← confirmed (feed.proofs.lookup benchmarkId) height then
    return .proven
  else
    return if feed.shows benchmarkId then .unsettled else .absent

/-- A height that a record names: `record[outer][name]`. -/
def heightIn (record : Option Json) (outer name : String) : Result ℤ := do
  let record ← fetch record (.malformed outer)
  match ← Protocol.field (← Protocol.field record outer) name with
  | .int height => return height
  | _ => throw (.funds "amount must be an integer number of token units")

/-- The outcome that a verdict leads to, if any, and its height.  A proof that is confirmed makes
work active once the block counts it as active. -/
def outcomeOf (feed : Feed) (snapshot : Protocol.Snapshot) (benchmarkId : String) :
    Result (Option (DefinitiveOutcome × ℤ)) := do
  match ← verdict feed snapshot.height benchmarkId with
  | .failed =>
      let height ← heightIn (feed.frauds.lookup benchmarkId) "state" "block_confirmed"
      return some (.verificationFailed, height)
  | .proven =>
      if benchmarkId ∈ snapshot.precommits then
        let height ← heightIn (feed.proofs.lookup benchmarkId) "details" "block_active"
        return some (.active, height)
      else return none
  | _ => return none

/-! ## Lifetimes -/

/-- A lifetime that has elapsed, by two saved blocks. -/
structure Lifetime where
  originalBlockId : String
  blockStarted : ℕ
  lifespanPeriod : ℕ
  blockId : String
  height : ℕ
deriving DecidableEq

def Lifetime.evidence (life : Lifetime) (source : String) : Json :=
  .obj [("block_id", .str life.blockId), ("block_started", .int life.blockStarted),
    ("height", .int life.height), ("lifespan_period", .int life.lifespanPeriod),
    ("original_block_id", .str life.originalBlockId), ("source", .str source)]

/-- `observation['start']['block']['config']['challenges'][challenge]['lifespan_period']` -/
def lifespan (observation : Json) (challenge label : String) : Result ℕ := do
  let config ← Protocol.field (← Protocol.field (← Protocol.field observation "start") "block")
    "config"
  let row ← Protocol.field (← Protocol.field config "challenges") challenge
  Protocol.integer (some (← Protocol.field row "lifespan_period")) label 1

/-- The challenge that the assignment is for, and the block it started from. -/
def startOf (row : Reservation) : Result (String × Json × ℕ) := do
  let settings ← Protocol.field (row.assignment.getD .null) "settings"
  let challenge ← Protocol.nameOf (← Protocol.field settings "challenge_id")
    (.malformed "challenge_id")
  let started ← Protocol.integer (some (← Protocol.field row.selection "height"))
    "precommit start height"
  return (challenge, ← Protocol.field settings "block_id", started)

/-- `_expired_lifetime`: what is missing or malformed is no evidence. -/
def expiredLifetime (row : Reservation) (original : Json × Protocol.Snapshot)
    (observation : Json) (snapshot : Protocol.Snapshot) : Option Lifetime :=
  let read : Result Lifetime := do
    let (challenge, blockId, started) ← startOf row
    let period ← lifespan original.1 challenge "challenge lifetime"
    let current ← lifespan observation challenge "current challenge lifetime"
    require (row.benchmarkId.all (fun id => id ∉ snapshot.precommits) = true)
      (.value "still active")
    require (blockId = .str original.2.blockId ∧ started = original.2.height)
      (.value "not the original block")
    require (current = period ∧ started + period < snapshot.height) (.value "not elapsed")
    return ⟨original.2.blockId, started, period, snapshot.blockId, snapshot.height⟩
  read.toOption

/-! ## Late results -/

section

variable (sha256 : String → String) (fromIso : String → Option ℚ)

/-- Was the response received by then? -/
def receivedBy (timestamp : ℕ) (response : Json) : Bool :=
  match response.get? "received_at" with
  | some (.str text) => (fromIso text).any fun received => received ≤ (timestamp : ℚ)
  | _ => false

/-- Does the response say that TIG refused the results, for want of the precommit, no later than
the block? -/
def refusesLate (origin benchmarkId : String) (timestamp : ℕ) (response : Json) : Bool :=
  let body := "Precommit does not exist: " ++ benchmarkId
  origin ≠ "" ∧ (response.get? "status").any (·.equals (.int 400)) ∧
    response.get? "path" = some (.str "/submit-benchmark") ∧
    response.get? "origin" = some (.str origin) ∧ response.get? "body" = some (.str body) ∧
    response.get? "raw_sha256" = some (.str (sha256 body)) ∧
    receivedBy fromIso timestamp response

end

/-! ## What reconcilers hold -/

/-- An accepted reservation, as it was read, and what a block shows of its benchmark. -/
structure Visit (playerId : String) where
  id : Uuid
  row : Reservation
  benchmarkId : String
  replay : Replay
  feed : Feed
  named : row.benchmarkId = some benchmarkId
  fed : playerFeed replay.observation playerId = .ok feed

namespace Visit

variable {playerId : String} (v : Visit playerId)

def snapshot : Protocol.Snapshot := v.replay.snapshot

/-- The benchmark's own record. -/
def benchmark : Option Json := v.feed.benchmarks.lookup v.benchmarkId

def verdict : Result Verdict := Reconciliation.verdict v.feed v.snapshot.height v.benchmarkId

/-- What is written with an outcome. -/
def evidence : Json :=
  .obj [("block_id", .str v.snapshot.blockId), ("height", .int v.snapshot.height),
    ("source", .str "archived-pool-feed")]

/-- The root that the block confirms is that of the results. -/
def RootOf (p : BenchmarkPayload) : Prop :=
  ∃ record details root, v.benchmark = some record ∧ record.get? "details" = some details ∧
    details.get? "merkle_root" = some root ∧ p.payload.get? "merkle_root" = some root

/-- Does the block say that the benchmark was not stopped? -/
def runsOn : Bool :=
  ((v.benchmark.bind (·.get? "details")).bind (·.get? "stopped")) = some (.bool false)

/-- The nonces that TIG has sampled. -/
def sampledNonces : Option Json :=
  (v.benchmark.bind (·.get? "details")).bind (·.get? "sampled_nonces")

end Visit

/-- The service, and what its reconcilers have read so far; nothing that was read is dropped. -/
structure State (playerId : String) where
  sys : Sys
  /-- What is kept of the captures of blocks. -/
  captures : List (Uuid × Json) := []
  replays : List Replay := []
  visits : List (Visit playerId) := []
  /-- Results that were read, by benchmark. -/
  results : List (String × BenchmarkPayload) := []
  /-- Visits whose results were found to be those of the block. -/
  rooted : List (Visit playerId) := []
  /-- Visits that are done with the benchmark's record. -/
  checked : List (Visit playerId) := []
  /-- Visits whose proofs are confirmed. -/
  proven : List (Visit playerId) := []
  lifetimes : List (Visit playerId × Lifetime) := []
  /-- Responses to results that were read. -/
  receipts : List (Uuid × Uuid × SubmissionResponse) := []

/-- A response to the results of a reservation, while it is not known what became of them. -/
def AnswersResults (db : Db) (id responseId : Uuid) (row : SubmissionResponse) : Prop :=
  db.work.submissionResponses.lookup responseId = some row ∧
    ∃ i, db.work.protocolOutbox.lookup row.outboxId = some i ∧ i.reservationId = id ∧
      i.kind = .results ∧ i.state = .uncertain

/-- With the capture of a block, its observation is kept. -/
inductive Keeps (fingerprint : Json → String) (captures : List (Uuid × Json)) :
    Action → List (Uuid × Json) → Prop
  | block {observation kept : Json} {source : BlockStore.Source} {c : BlockStore.BlockCapture}
      {seen : Option ℕ} : Archives fingerprint observation kept source c →
      Keeps fingerprint captures (.observe (.record source (some c) seen))
        ((source.attemptId, kept) :: captures)
  | other {a : Action} : (∀ source c seen, a ≠ .observe (.record source (some c) seen)) →
      Keeps fingerprint captures a captures

/-- `BlockStore.read`: a block that can be read is replayed from what is kept with its capture,
if that has the digest of the block.  No block is replayed from a compact copy: captures that
name the pool's player are compact from the start. -/
structure ReadsBlock {playerId : String} (fingerprint : Json → String) (s : State playerId)
    (id : String) (replay : Replay) : Prop where
  saved : ∃ saved, BlockStore.read s.sys.db id = .ok saved
  block : ∃ block, s.sys.db.observation.blocks.lookup id = some block ∧
    (block.attemptId, replay.observation) ∈ s.captures ∧
    Protocol.semantic fingerprint replay.snapshot replay.observation = block.semanticDigest

section

variable (playerId origin : String) (fingerprint : Json → String) (sha256 : String → String)
  (fromIso : String → Option ℚ)

/-- A transaction of the service, or the next one of a reconciler. -/
inductive Step : State playerId → State playerId → Prop
  | served {s : State playerId} {a : Action} {sys : Sys} {captures : List (Uuid × Json)} :
      Sys.Whole s.sys a → reconciles a = false → Sys.Step s.sys a sys →
      Keeps fingerprint s.captures a captures → Step s { s with sys, captures }
  | read {s : State playerId} {id : String} {replay : Replay} :
      ReadsBlock fingerprint s id replay → Step s { s with replays := replay :: s.replays }
  | visited {s : State playerId} {v : Visit playerId} : v.replay ∈ s.replays →
      s.sys.db.funds.reservations.lookup v.id = some v.row → v.row.state = .accepted →
      Step s { s with visits := v :: s.visits }
  | looked {s : State playerId} {benchmarkId : String} {p : BenchmarkPayload} :
      s.sys.db.work.benchmarkPayloads.lookup (benchmarkId, .results) = some p →
      Step s { s with results := (benchmarkId, p) :: s.results }
  /-- The block confirms no benchmark. -/
  | passed {s : State playerId} {v : Visit playerId} : v ∈ s.visits →
      confirmed v.benchmark v.snapshot.height = .ok false →
      Step s { s with checked := v :: s.checked }
  | rooted {s : State playerId} {v : Visit playerId} {p : BenchmarkPayload} {db : Db} :
      v ∈ s.visits → confirmed v.benchmark v.snapshot.height = .ok true →
      (v.benchmarkId, p) ∈ s.results → v.row.handedOverAt.isSome → v.RootOf p →
      Submissions.confirmPayload s.sys.db v.id .results v.evidence = .ok db →
      Step s { s with sys := ⟨db, s.sys.held⟩, rooted := v :: s.rooted }
  | stopped {s : State playerId} {v : Visit playerId} : v ∈ s.rooted → v.runsOn = false →
      Step s { s with checked := v :: s.checked }
  | sampled {s : State playerId} {v : Visit playerId} {nonces : List ℕ} {db : Db} :
      v ∈ s.rooted → v.runsOn = true →
      v.sampledNonces = some (.arr (nonces.map fun n => .int n)) →
      MemberProtocol.sampled s.sys.db v.benchmarkId nonces v.evidence = .ok db →
      Step s { s with sys := ⟨db, s.sys.held⟩, checked := v :: s.checked }
  | proven {s : State playerId} {v : Visit playerId} {db : Db} : v ∈ s.checked →
      (v.verdict = .ok .failed ∨ v.verdict = .ok .proven) →
      Submissions.confirmPayload s.sys.db v.id .proofs v.evidence = .ok db →
      Step s { s with sys := ⟨db, s.sys.held⟩, proven := v :: s.proven }
  | ended {s : State playerId} {v : Visit playerId} {outcome : DefinitiveOutcome} {height : ℤ}
      {out : Uuid} {db : Db} : v ∈ s.proven →
      outcomeOf v.feed v.snapshot v.benchmarkId = .ok (some (outcome, height)) →
      recordOutcome s.sys.db v.id outcome height v.evidence = .ok (db, out) →
      Step s { s with sys := ⟨db, s.sys.held⟩ }
  | lived {s : State playerId} {v : Visit playerId} {original : Replay} {life : Lifetime} :
      v ∈ s.checked → v.verdict = .ok .absent → original ∈ s.replays →
      v.row.selection.get? "block_id" = some (.str original.snapshot.blockId) →
      expiredLifetime v.row (original.observation, original.snapshot) v.replay.observation
        v.snapshot = some life →
      Step s { s with lifetimes := (v, life) :: s.lifetimes }
  | expiredUnsent {s : State playerId} {v : Visit playerId} {life : Lifetime} {out : Bool}
      {db : Db} : (v, life) ∈ s.lifetimes → v.row.handedOverAt.isSome →
      expireUnsentResults s.sys.db v.id v.snapshot.height
        (life.evidence "tig-unsent-results-expiry-v1") = .ok (db, out) →
      Step s { s with sys := ⟨db, s.sys.held⟩ }
  | answered {s : State playerId} {id responseId : Uuid} {row : SubmissionResponse} :
      AnswersResults s.sys.db id responseId row →
      Step s { s with receipts := (id, responseId, row) :: s.receipts }
  | expiredRejected {s : State playerId} {v : Visit playerId} {life : Lifetime}
      {responseId : Uuid} {row : SubmissionResponse} {out : Bool} {db : Db} :
      (v, life) ∈ s.lifetimes → (v.id, responseId, row) ∈ s.receipts →
      refusesLate sha256 fromIso origin v.benchmarkId v.snapshot.timestamp row.response = true →
      expireRejectedResults s.sys.db v.id v.snapshot.height
        (life.evidence "tig-late-results-rejection-v1") (responseId, row.response) origin
        = .ok (db, out) →
      Step s { s with sys := ⟨db, s.sys.held⟩ }

end

end Reconciliation

end TigPool
