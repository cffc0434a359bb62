/-
# `TigPool.Observation` — saved blocks, gaps and qualifying credit

A block is saved once and never changes; a second capture that disagrees with it,
or with a neighbour, leaves a conflict alert instead.  A round is covered when it
has ended on chain, holds no unresolved conflict and misses no more heights than
the policy tolerates; a missing height counts as zero pool credit, and a later
genuine backfill still needs credit.
-/
import TigPool.Archive
import TigPool.EqualBundle

namespace TigPool

open Basis

namespace BlockStore

/-! ## Recording blocks -/

/-- A capture that validates as one complete block. -/
structure BlockCapture where
  blockId : String
  height : ℕ
  previousId : String
  round : ℕ
  timestamp : ℤ
  blocksPerRound : ℕ
  semanticDigest : String
  snapshot : BlockSnapshot
  /-- The digests under which an already saved block counts as the same block. -/
  accepted : List String
  valid : snapshot.Valid

/-- The row under which a block is saved. -/
def BlockCapture.block (capture : BlockCapture) (attemptId : Uuid) (now : Time) :
    ObservedBlock where
  height := capture.height
  previousId := capture.previousId
  round := capture.round
  timestamp := capture.timestamp
  blocksPerRound := capture.blocksPerRound
  semanticDigest := capture.semanticDigest
  attemptId := attemptId
  capturedAt := now
  snapshot := capture.snapshot

def initializeStore (db : Db) (launchHeight : ℕ) : Result Db :=
  match db.observation.stream with
  | some stream => do
      require (stream.launchHeight = launchHeight)
        (.protocolData "collection start cannot change after initialization")
      return db
  | none =>
      let stream : ObservationStream :=
        { launchHeight, contiguousHeight := launchHeight - 1, latestSeenHeight := launchHeight - 1 }
      .ok { db with observation := { db.observation with stream := some stream } }

def atHeight (db : Db) (height : ℤ) : Option (String × ObservedBlock) :=
  db.observation.blocks.find fun _ b => (b.height : ℤ) = height

/-- Does a complete capture differ from the block saved at its height or under its id? -/
def differing (db : Db) (capture : BlockCapture) : Bool :=
  db.observation.blocks.any fun blockId b =>
    (b.height = capture.height ∨ blockId = capture.blockId) ∧
      (blockId ≠ capture.blockId ∨ b.semanticDigest ∉ capture.accepted)

/-- The saved neighbours, on both sides, to which a complete capture does not link. -/
def unlinked (db : Db) (capture : BlockCapture) : List String :=
  (db.observation.blocks.entries.filter fun e =>
    (e.2.height + 1 = capture.height ∧ e.1 ≠ capture.previousId) ∨
      (e.2.height = capture.height + 1 ∧ e.2.previousId ≠ capture.blockId)).map (·.1)

/-- The conflicts a complete capture brings to light. -/
def conflictsWith (db : Db) (capture : BlockCapture) : List ConflictAlert :=
  ((if differing db capture then [none] else []) ++ (unlinked db capture).map some).map
    fun neighbor =>
      { height := capture.height, blockId := capture.blockId, neighbor, resolvedAt := none }

/-- How far the saved blocks link without a gap or a conflict; `fuel` bounds the
number of blocks to look at. -/
def contiguous (db : Db) : ℕ → ℤ → Option String → ℤ
  | 0, height, _ => height
  | fuel + 1, height, previousId =>
      match atHeight db (height + 1) with
      | some (blockId, b) =>
          if Reports.hasUnresolvedConflict db b.height ∨
              previousId.any (· ≠ b.previousId) then height
          else contiguous db fuel (height + 1) (some blockId)
      | none => height

/-- `_advance`: move the contiguous cursor. -/
def advance (db : Db) : Db :=
  match db.observation.stream with
  | none => db
  | some stream =>
      let height := contiguous db db.observation.blocks.entries.length stream.contiguousHeight
        ((atHeight db stream.contiguousHeight).map (·.1))
      { db with observation :=
        { db.observation with stream := some { stream with contiguousHeight := height } } }

/-- Note the height of a capture and pull the cursor back below a conflict. -/
def observeHeight (db : Db) (stream : ObservationStream) (height : Option ℕ) : Db :=
  let seen := height.elim stream.latestSeenHeight fun h => max stream.latestSeenHeight h
  let conflicting := (db.observation.conflicts.filter fun alert =>
    ¬ alert.resolved ∧ stream.launchHeight ≤ alert.height).map fun alert => (alert.height : ℤ)
  let back := conflicting.foldl min (stream.contiguousHeight + 1) - 1
  { db with observation := { db.observation with
    stream := some { stream with latestSeenHeight := seen, contiguousHeight := back } } }

/-- A complete capture says itself which block it is of, and is compacted before it is kept
if it names the pool's player. -/
def Source.of (source : Source) (capture : BlockCapture) : Source :=
  { source with blockId := some capture.blockId
                compactRef := source.compactRef || source.poolPlayer.isSome }

/-- Store available evidence, even when it cannot establish a complete block:
`capture` is the block it validates as, `height` the height it claims. -/
def record (db : Db) (source : Source) (capture : Option BlockCapture) (height : Option ℕ) :
    Result Db := do
  let stream ← fetch db.observation.stream
    (.protocolData "initialize collection start before recording blocks")
  require (source.attemptId ∉ db.observation.archive.captureAttempts)
    (.integrity "capture_attempts_pkey")
  match capture with
  | none => return observeHeight (keep db source height true) stream height
  | some capture =>
      require (0 < capture.blocksPerRound ∧
          capture.height / capture.blocksPerRound + 1 = capture.round)
        (.protocolData "block/round boundary mapping differs from the pinned adapter")
      let source := source.of capture
      let alerts := conflictsWith db capture
      if alerts ≠ [] then
        let db := keep db source (some capture.height) true
        let db := { db with observation :=
          { db.observation with conflicts := alerts ++ db.observation.conflicts } }
        return observeHeight db stream (some capture.height)
      else
        let db := observeHeight (keep db source (some capture.height) false) stream
          (some capture.height)
        let db := if capture.blockId ∈ db.observation.blocks then db else
          { db with observation := { db.observation with
            blocks := AList.insert capture.blockId (capture.block source.attemptId db.clock)
              db.observation.blocks } }
        let db := advance db
        return putIndex db (trackCapture db.observation.blocks db.observation.archive source
          capture.blockId capture.height)

/-- An operator's reviewed resolution of one alert, under a policy whose `proof` the
two captures have to pass.  Only a second capture of the same block can be resolved. -/
def resolve (db : Db) (index : ℕ) (proof : Result Unit) : Result Db := do
  let alert ← fetch db.observation.conflicts[index]?
    (.protocolData "alert is not the matching same-block capture conflict")
  if alert.resolved then
    return db
  else
    let (blockId, _) ← fetch (atHeight db alert.height)
      (.protocolData "alert is not the matching same-block capture conflict")
    require (alert.neighbor = none ∧ alert.blockId = blockId)
      (.protocolData "alert is not the matching same-block capture conflict")
    let _ ← proof
    return advance { db with observation := { db.observation with
      conflicts := db.observation.conflicts.set index { alert with resolvedAt := some db.clock } } }

/-- Replay a saved block.  A compact copy takes the place of the raw capture. -/
def read (db : Db) (blockId : String) : Result BlockSnapshot := do
  let block ← fetch (db.observation.blocks.lookup blockId)
    (.protocolData "complete block is not available in the pool archive")
  require (Reports.hasUnresolvedConflict db block.height = false)
    (.protocolData "conflicting observation requires investigation before use")
  match db.observation.archive.compactBlockCopies.lookup blockId with
  | some copy =>
      require (copy.expired = false)
        (.protocolData "compact block evidence expired under the retention policy")
      return block.snapshot.compact copy.playerId
  | none =>
      let attempt ← fetch (db.observation.archive.captureAttempts.lookup block.attemptId)
        (.protocolData "complete block is not available in the pool archive")
      require (attempt.expired = false)
        (.protocolData "block evidence expired under the retention policy")
      require (∀ digest ∈ attempt.references, digest ∈ db.observation.archive.observationChunks)
        (.protocolData "stored observation is missing raw evidence")
      return block.snapshot

/-! ## Gaps -/

def gapPolicy (db : Db) : Result MissingBlockPolicy :=
  fetch db.observation.policies.head?
    (.protocolData "the missing-block tolerance policy is not recorded")

def gapPolicyName : String := "bounded-zero-credit-v1"

/-- Append a reviewed tolerance revision; it applies to every round that has not settled. -/
def setGapPolicy (db : Db) (maxMissing warnMissing : ℕ) (actor reason : String) : Result Db := do
  require (warnMissing ≤ maxMissing) (.value "the warning level cannot exceed the settlement limit")
  require (actor ≠ "" ∧ reason ≠ "") (.value "a policy change requires an actor and reason")
  let current ← gapPolicy db
  if current.maxMissingPerRound = maxMissing ∧ current.warnMissingPerRound = warnMissing then
    return db
  else
    let policy : MissingBlockPolicy :=
      { policy := gapPolicyName, revision := current.revision + 1,
        maxMissingPerRound := maxMissing, warnMissingPerRound := warnMissing }
    return { db with observation :=
      { db.observation with policies := policy :: db.observation.policies } }

/-- Record the single prelaunch missing-height exception without fabricating a block. -/
def waivePrelaunchGap (db : Db) (height : ℕ) (actor reason : String) (evidence : Json) :
    Result Db := do
  require (actor ≠ "" ∧ reason ≠ "") (.value "gap waiver requires an actor and reason")
  require (evidence.truthy = true) (.value "gap waiver requires nonempty evidence")
  if db.observation.gapWaivers.any (fun h w =>
      h = height ∧ w.actor = actor ∧ w.reason = reason ∧ w.evidence = evidence) then
    return db
  require (db.observation.gapWaivers.entries = [])
    (.protocolData "the one-time prelaunch gap waiver is already recorded")
  require (paused db = true)
    (.protocolData "prelaunch gap waiver requires new work to remain paused")
  require (db.funds.reservations.entries = [])
    (.protocolData "prelaunch gap waiver is unavailable after pool reservations exist")
  require (db.observation.stream.any fun s =>
      s.launchHeight ≤ height ∧ (height : ℤ) < s.latestSeenHeight)
    (.protocolData "waiver height is outside the observed stream")
  require ((atHeight db height).isNone)
    (.protocolData "waiver requires one missing height between two captured blocks")
  let (_, previous) ← fetch (atHeight db (height - 1))
    (.protocolData "waiver requires one missing height between two captured blocks")
  let (_, next) ← fetch (atHeight db (height + 1))
    (.protocolData "waiver requires one missing height between two captured blocks")
  let round := height / previous.blocksPerRound + 1
  require (0 < previous.blocksPerRound ∧ next.blocksPerRound = previous.blocksPerRound ∧
      previous.round = round ∧ next.round = round)
    (.protocolData "waiver height must be bracketed within one verified round")
  require (next.previousId ∉ db.observation.blocks)
    (.protocolData "the successor points to an already recorded block at another height")
  require (¬ Reports.hasUnresolvedConflict db (height - 1) ∧
      ¬ Reports.hasUnresolvedConflict db height ∧ ¬ Reports.hasUnresolvedConflict db (height + 1))
    (.protocolData "conflicting neighbor evidence prevents a gap waiver")
  return { db with observation := { db.observation with
    gapWaivers :=
      AList.insert height ⟨round, actor, reason, evidence⟩ db.observation.gapWaivers } }

/-- One reward round's coverage against the missing-block policy. -/
structure RoundGaps where
  policy : MissingBlockPolicy
  observed : ℤ
  uncredited : ℕ
  missingHeights : List ℕ
  waivedHeights : List ℕ
  complete : Bool
  creditedComplete : Bool
  warning : Bool
deriving DecidableEq

/-- The lengths of the round that its blocks give. -/
def roundLengths (db : Db) (round : ℕ) : List ℕ :=
  ((db.observation.blocks.entries.filter fun e => e.2.round = round).map
    fun e => e.2.blocksPerRound).dedup

/-- The block of the round saved at a height. -/
def blockOfRound (db : Db) (round height : ℕ) : Option ObservedBlock :=
  (db.observation.blocks.find fun _ b => b.height = height ∧ b.round = round).map (·.2)

/-- The heights of a round: `generate_series(first, last)`. -/
def roundHeights (round length : ℕ) : List ℕ :=
  List.range' ((round - 1) * length) length

def isWaived (db : Db) (round height : ℕ) : Bool :=
  (db.observation.gapWaivers.lookup height).any (·.roundNumber = round)

def roundGaps (db : Db) (round : ℕ) : Result RoundGaps := do
  let policy ← gapPolicy db
  match roundLengths db round with
  | [length] =>
      let heights := roundHeights round length
      let unobserved := heights.filter fun h => (blockOfRound db round h).isNone
      let missing := unobserved.filter fun h => ¬ isWaived db round h
      let waived := unobserved.filter fun h => isWaived db round h
      let uncredited := heights.countP fun h => (blockOfRound db round h).any (·.credited.isNone)
      let conflicting := db.observation.conflicts.any fun alert =>
        alert.height ∈ heights ∧ ¬ alert.resolved
      let ended := db.observation.stream.any fun s => ((round * length : ℕ) : ℤ) - 1 ≤ s.latestSeenHeight
      let complete : Bool := ended ∧ ¬ conflicting ∧ missing.length ≤ policy.maxMissingPerRound
      return { policy, observed := length - missing.length - waived.length, uncredited,
               missingHeights := missing.take (max 100 policy.maxMissingPerRound),
               waivedHeights := waived, complete, creditedComplete := complete ∧ uncredited = 0,
               warning := policy.warnMissingPerRound < missing.length }
  | _ => return { policy, observed := 0, uncredited := 0, missingHeights := [], waivedHeights := [],
                  complete := false, creditedComplete := false, warning := false }

end BlockStore

/-! ## Qualifying credit -/

namespace Qualifiers

def rule : String := "equal-cutoff-bundles-v1"

/-- What the saved block says about the pool: the benchmarks its player owns, the
credit of each by the equal-bundle rule, and the player's qualifier total. -/
structure PoolCredit where
  owned : List String
  byBenchmark : Table String ℚ
  expected : ℚ

/-- The credits of a benchmark's bundles, added up benchmark by benchmark. -/
def addCredit (owned : List String) (item : (String × ℕ) × ℚ) (t : Table String ℚ) :
    Table String ℚ :=
  if item.1.1 ∈ owned then
    AList.insert item.1.1 ((t.lookup item.1.1).getD 0 + item.2) t
  else t

/-- What a replayed block says about a player. -/
def poolCredit (snapshot : BlockSnapshot) (playerId : String) : Result PoolCredit := do
  let owned := snapshot.ownedBy playerId
  let credits ← equalBundleCredit snapshot
  return { owned,
           byBenchmark := (credits.entries.map fun e => (e.1, e.2)).foldr (addCredit owned) ∅,
           expected := snapshot.qualifiersOf playerId }

/-- The reservation behind a benchmark. -/
def owner (db : Db) (benchmarkId : String) : Option Reservation :=
  (db.funds.reservations.find fun _ r => r.benchmarkId = some benchmarkId).map (·.2)

/-- Attribute the credit of a saved block to the owners of its benchmarks, once. -/
def creditBlock (db : Db) (blockId playerId : String) (saved : PoolCredit) : Result Db := do
  let block ← fetch (db.observation.blocks.lookup blockId) (.protocolData "unknown block")
  let owners := saved.owned.filterMap fun b => (owner db b).map fun r => (b, r)
  let unhanded := owners.filter fun o => o.2.handedOverAt = none
  require (owners.length = saved.owned.length ∧
      (∀ o ∈ unhanded, o.2.state = .cancelled ∧ o.2.collateralOutcome = some .returned) ∧
      (∀ o ∈ unhanded, o.1 ∉ saved.byBenchmark) ∧ ∀ b ∈ saved.byBenchmark.keys, b ∈ saved.owned)
    (.protocolData "pool benchmark ownership or confirmed handover is missing")
  let digest := owners.map fun o => (o.1, o.2.memberId)
  let total := saved.byBenchmark.total fun _ credit => credit
  require (total = saved.expected)
    (.protocolData "member credit does not reconcile to pool qualifying totals")
  match block.credited with
  | some previous =>
      require (previous.playerId = playerId ∧ previous.rule = rule ∧
          previous.ownershipDigest = digest ∧ previous.total = total)
        (.protocolData "replayed ownership or credit differs from the recorded block")
      return db
  | none =>
      require (saved.byBenchmark.any (fun _ credit => credit < 0) = false)
        (.integrity "benchmark_credits_numerator_check")
      let credits := owners.filterMap fun o =>
        (saved.byBenchmark.lookup o.1).map fun credit => BenchmarkCredit.mk o.1 o.2.memberId credit
      let row : CreditedBlock := { playerId, rule, ownershipDigest := digest, total, credits }
      return { db with observation := { db.observation with
        blocks := AList.insert blockId { block with credited := some row } db.observation.blocks } }

/-- The credit rows of a round's blocks, added up for each member. -/
def creditOf (db : Db) (round : ℕ) (memberId : Uuid) : ℚ :=
  db.observation.blocks.total fun _ b =>
    if b.round = round then
      (((b.credited.elim [] (·.credits)).filter fun c => c.memberId = memberId).map (·.credit)).sum
    else 0

/-- The members with credit rows in a round. -/
def creditedMembers (db : Db) (round : ℕ) : List Uuid :=
  ((db.observation.blocks.entries.filter fun e => e.2.round = round).flatMap fun e =>
    (e.2.credited.elim [] (·.credits)).map (·.memberId)).dedup

/-- The first transaction of `round_credits`. -/
def requireCoverage (db : Db) (round : ℕ) : Result Unit := do
  let gaps ← BlockStore.roundGaps db round
  require (gaps.creditedComplete = true)
    (.protocolData "reward round has incomplete block or credit coverage")

/-- The second transaction of `round_credits`: the credit of every member of the round. -/
def roundCredits (db : Db) (round : ℕ) : Table String ℚ :=
  (creditedMembers db round).foldr (fun m t => AList.insert m (creditOf db round m) t) ∅

end Qualifiers

end TigPool
