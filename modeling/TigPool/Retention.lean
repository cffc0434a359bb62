/-
# `TigPool.Retention` — expiry of evidence under a recorded policy

A retention run plans how far the block floor may advance, round by round, writes the
floor, and then works through batches of its own: it expires manifests under the floor,
removes chunks by their last use, and expires compact copies.  Compaction adds a compact
copy of a block, and may then expire the raw capture alone.

Which rows a batch picks, and how many, is left to the caller; it can only pick rows
that the query finds.
-/
import TigPool.Settlement

namespace TigPool

open Basis

namespace Retention

/-! ## The plan of a run -/

structure Policy where
  rawBlockRounds : ℕ := 4
  captureDays : ℕ := 30
  settledMarginRounds : ℕ := 3

/-- Target floors, and the rounds that are still to be looked at. -/
structure Plan where
  blockHeight : ℤ
  captureCutoff : Time
  coveredUntil : Time
  policy : Policy
  length : ℕ
  currentRound : ℕ
  settled : List ℕ
  coveredHeight : ℤ
  todo : List ℕ

/-- The highest block that the backup covers. -/
def coveredHeight (db : Db) (coveredUntil : Time) : ℤ :=
  ((db.observation.blocks.entries.filter fun e => e.2.capturedAt ≤ coveredUntil).map
    fun e => (e.2.height : ℤ)).foldl max (-1)

def settledRounds (db : Db) : List ℕ :=
  (db.funds.roundEarnings.filter fun _ e => e.settlement.isSome).keys

/-- The first part of `plan`: where to start, and what to look at. -/
def plan (db : Db) (policy : Policy) (coveredUntil now : Time) : Plan :=
  let current := db.observation.archive.retentionFloors
  let cutoff := min (now - days policy.captureDays) coveredUntil
  let (length, currentRound) := (BlockStore.highest db.observation.blocks).elim (0, 0) fun head =>
    (head.2.blocksPerRound, head.2.round)
  let launch := db.observation.stream.elim 0 (·.launchHeight)
  let first := max (launch / length + 1) ((current.blockHeight + 1).toNat / length + 1)
  { blockHeight := current.blockHeight, captureCutoff := max current.captureCutoff cutoff,
    coveredUntil, policy, length, currentRound, settled := settledRounds db,
    coveredHeight := coveredHeight db coveredUntil,
    todo := List.range' first (currentRound - first) }

/-- Has the round been over for long enough? -/
def Plan.due (plan : Plan) (round : ℕ) : Prop :=
  round + plan.policy.rawBlockRounds ≤ plan.currentRound ∨
    (round ∈ plan.settled ∧ round + plan.policy.settledMarginRounds ≤ plan.currentRound)

instance (plan : Plan) (round : ℕ) : Decidable (plan.due round) := by
  unfold Plan.due
  infer_instance

/-- Look at the next round; the coverage is read in a transaction of its own. -/
def look (db : Db) (plan : Plan) : Result Plan :=
  match plan.todo with
  | [] => .ok plan
  | round :: todo =>
      let stop := { plan with todo := [] }
      if plan.due round then do
        let coverage ← BlockStore.roundGaps db round
        let last : ℤ := (round * plan.length : ℕ) - 1
        if coverage.creditedComplete = true ∧ last ≤ plan.coveredHeight then
          return { plan with blockHeight := last, todo }
        else return stop
      else .ok stop

def putFloors (db : Db) (floors : RetentionFloors) : Db :=
  db.putArchive { db.observation.archive with retentionFloors := floors }

/-- Write the floors of a finished plan; they only advance. -/
def advanceFloors (db : Db) (plan : Plan) : Result Db := do
  let current := db.observation.archive.retentionFloors
  require (current.blockHeight ≤ plan.blockHeight ∧ current.captureCutoff ≤ plan.captureCutoff)
    (.integrity "retention floors only advance")
  return putFloors db { blockHeight := plan.blockHeight, captureCutoff := plan.captureCutoff }

/-! ## The batches of a run -/

/-- Does work whose collateral is still open rest on the block? -/
def selectedBy (db : Db) (blockId : String) : Bool :=
  db.funds.reservations.any fun _ r =>
    r.selection.get? "block_id" = some (.str blockId) ∧ r.collateralOutcome = none

/-- The captures under the floor that may expire. -/
def expirable (db : Db) (plan : Plan) (attempt : CaptureAttempt) : Bool :=
  attempt.expired = false ∧
    attempt.height.elim (attempt.createdAt ≤ plan.captureCutoff : Bool)
      (fun height : ℕ => (height : ℤ) ≤ plan.blockHeight) = true ∧
    attempt.createdAt ≤ plan.coveredUntil ∧
    ¬ attempt.blockId.any (selectedBy db)

/-- The captures with the manifests of some expired. -/
def putExpired (db : Db) (ids : List Uuid) : Db :=
  db.putArchive { db.observation.archive with
    captureAttempts := Table.mapVals
      (fun id a => if id ∈ ids then { a with expired := true } else a)
      db.observation.archive.captureAttempts }

def expireCaptures (db : Db) (plan : Plan) (ids : List Uuid) : Result Db := do
  require (∀ id ∈ ids,
      (db.observation.archive.captureAttempts.lookup id).any (expirable db plan) = true)
    (.integrity "capture manifests expire only under the recorded retention floor")
  return putExpired db ids

/-- The chunks of captures under the floor that are not expired. -/
def protectedChunks (db : Db) (plan : Plan) : List String :=
  (db.observation.archive.captureAttempts.entries.filter fun e =>
    e.2.expired = false ∧ e.2.height.any fun h : ℕ => (h : ℤ) ≤ plan.blockHeight).flatMap
    fun e => e.2.references

/-- The archive without some chunks. -/
def dropChunks (db : Db) (digests : List String) (index : Table String ℕ) : Db :=
  db.putArchive { db.observation.archive with
    observationChunks := db.observation.archive.observationChunks.filter (· ∉ digests)
    chunkLastRef := index }

/-- Remove chunks whose last use is at or under the floor. -/
def removeChunks (db : Db) (plan : Plan) (digests : List String) : Result Db := do
  let index := db.observation.archive.chunkLastRef
  require (∀ digest ∈ digests,
      (index.lookup digest).any (fun h : ℕ => (h : ℤ) ≤ plan.blockHeight) = true ∧
        digest ∉ protectedChunks db plan)
    (.integrity "chunk is still in use")
  return dropChunks db digests (ChunkIndex.drop index digests)

def putCopies (db : Db) (copies : Table String CompactCopy) : Db :=
  db.putArchive { db.observation.archive with compactBlockCopies := copies }

/-- Expire the compact copies of blocks at or under the floor. -/
def expireCopies (db : Db) (plan : Plan) : Db :=
  putCopies db (Table.mapVals (fun blockId copy =>
    if (db.observation.blocks.lookup blockId).any (fun b => (b.height : ℤ) ≤ plan.blockHeight) ∧
        copy.createdAt ≤ plan.coveredUntil ∧ ¬ selectedBy db blockId
      then { copy with expired := true } else copy) db.observation.archive.compactBlockCopies)

/-- One-time start of the chunk index. -/
def initializeChunkIndex (db : Db) : Result Db := do
  match BlockStore.highest db.observation.blocks with
  | none => return db
  | some (_, newest) =>
      require (db.observation.archive.chunkLastRef.entries = [])
        (.protocolData "chunk index already initialized")
      let live := BlockStore.manifestReferences db.observation.archive newest
      return BlockStore.putIndex db (ChunkIndex.raise db.observation.archive.chunkLastRef
        (db.observation.archive.observationChunks.filter (· ∉ live)) newest.height)

end Retention

namespace Compaction

open Retention

/-- The full capture behind a block.  `backfill` passes over blocks that are compact already;
which they are never changes, so what its query has found is still so when the copy is made. -/
def fullCapture (db : Db) (block : ObservedBlock) : Option CaptureAttempt :=
  (db.observation.archive.captureAttempts.lookup block.attemptId).filter fun attempt =>
    attempt.compactRef = false

/-- Add a compact copy of a block that was read before.  `projection` says whether what was
read compacts to a projection that keeps its identity. -/
def backfill (db : Db) (blockId playerId : String) (projection : Result Unit) : Result Db := do
  let block ← fetch (db.observation.blocks.lookup blockId)
    (.integrity "compact_block_copies_block_id_fkey")
  match fullCapture db block with
  | none => return db
  | some attempt =>
      require (attempt.poolPlayer = some playerId)
        (.protocolData "legacy capture does not bind the configured pool player")
      let _ ← projection
      let copies := db.observation.archive.compactBlockCopies
      if blockId ∈ copies then return db
      else return putCopies db (AList.insert blockId { playerId, createdAt := db.clock } copies)

/-- What a backfill does: nothing, or it adds the first copy of a block whose full capture
names the player. -/
theorem backfill_cases {db db' : Db} {blockId playerId : String} {projection : Result Unit}
    (h : backfill db blockId playerId projection = .ok db') :
    db' = db ∨ ∃ block attempt, db.observation.blocks.lookup blockId = some block ∧
      db.observation.archive.captureAttempts.lookup block.attemptId = some attempt ∧
      attempt.compactRef = false ∧ attempt.poolPlayer = some playerId ∧
      blockId ∉ db.observation.archive.compactBlockCopies ∧
      db' = putCopies db (AList.insert blockId { playerId, createdAt := db.clock }
        db.observation.archive.compactBlockCopies) := by
  simp only [backfill, bind_eq_ok, fetch_eq_ok] at h
  obtain ⟨block, hblock, h⟩ := h
  split at h
  next =>
    obtain rfl := Except.ok.inj h
    exact .inl rfl
  next attempt hfull =>
    obtain ⟨hattempt, hraw⟩ := Option.filter_eq_some_iff.mp hfull
    simp only [bind_eq_ok, require_eq_ok, exists_const] at h
    obtain ⟨hplayer, _, -, h⟩ := h
    split at h
    next =>
      obtain rfl := Except.ok.inj h
      exact .inl rfl
    next hfresh =>
      obtain rfl := Except.ok.inj h
      exact .inr ⟨block, attempt, hblock, hattempt, of_decide_eq_true hraw, hplayer, hfresh, rfl⟩

/-- May the raw capture of a block expire on its own? -/
def prunable (db : Db) (coveredUntil : Time) (id : Uuid) (attempt : CaptureAttempt) : Bool :=
  attempt.expired = false ∧ attempt.createdAt ≤ coveredUntil ∧
    db.observation.blocks.any fun blockId b => b.attemptId = id ∧
      (db.observation.archive.compactBlockCopies.lookup blockId).any (fun copy =>
        copy.expired = false ∧ copy.createdAt ≤ coveredUntil) ∧
      b.credited.isSome ∧ blockId ∈ db.observation.archive.reconciledBlocks ∧
      Reports.hasUnresolvedConflict db b.height = false ∧
      ¬ db.observation.conflicts.any fun alert => alert.height = b.height ∧
        alert.resolvedAt.any (coveredUntil < ·)

def prune (db : Db) (coveredUntil : Time) (ids : List Uuid) : Result Db := do
  require (∀ id ∈ ids, (db.observation.archive.captureAttempts.lookup id).any
      (prunable db coveredUntil id) = true)
    (.integrity "raw capture still needs its evidence or a backed compact replacement")
  return putExpired db ids

/-- The chunks that surviving captures reference. -/
def liveChunks (db : Db) : List String :=
  db.observation.archive.captureAttempts.entries.flatMap fun e => e.2.live

/-- Remove chunks no surviving capture references, and rows of the index without a chunk. -/
def collectUnusedChunks (db : Db) (digests orphans : List String) : Result Db := do
  require (∀ digest ∈ digests, digest ∉ liveChunks db) (.integrity "chunk is still in use")
  require (∀ digest ∈ orphans, digest ∉ db.observation.archive.observationChunks.filter
      (· ∉ digests)) (.integrity "chunk is still stored")
  return dropChunks db digests (ChunkIndex.drop db.observation.archive.chunkLastRef orphans)

end Compaction

/-- `reconcile_block` notes that a block has been worked through. -/
def Reconciliation.markReconciled (db : Db) (blockId : String) : Result Db := do
  require (blockId ∈ db.observation.blocks) (.integrity "reconciled_blocks_block_id_fkey")
  return db.putArchive { db.observation.archive with
    reconciledBlocks := blockId :: db.observation.archive.reconciledBlocks }

end TigPool
