/-
# `TigPool.Refinement.Observation` — what operations on observed blocks can do

Each operation on observed blocks is taken apart here once; that it touches nothing
else, what becomes of the saved blocks, where the cursor stands afterwards and what the
chunk index says are read off the cases.
-/
import TigPool.Retention

namespace TigPool

open Basis

namespace BlockStore

variable {db db' : Db}

/-- The blocks with the one of a capture added, unless it is there. -/
def save (db : Db) (source : Source) (capture : BlockCapture) : Db :=
  if capture.blockId ∈ db.observation.blocks then db else
    { db with observation := { db.observation with
      blocks := AList.insert capture.blockId (capture.block source.attemptId db.clock)
        db.observation.blocks } }

/-- The conflicts with some added. -/
def warn (db : Db) (alerts : List ConflictAlert) : Db :=
  { db with observation := { db.observation with conflicts := alerts ++ db.observation.conflicts } }

/-- The conflicts with one of them resolved. -/
def settle (db : Db) (index : ℕ) (alert : ConflictAlert) : Db :=
  { db with observation := { db.observation with
    conflicts := db.observation.conflicts.set index { alert with resolvedAt := some db.clock } } }

/-- The stream with its heights moved. -/
def putStream (db : Db) (stream : ObservationStream) : Db :=
  { db with observation := { db.observation with stream := some stream } }

theorem advance_cases : advance db = db ∨
    ∃ stream height, db.observation.stream = some stream ∧
      advance db = putStream db { stream with contiguousHeight := height } := by
  unfold advance
  cases hs : db.observation.stream with
  | none => exact Or.inl rfl
  | some stream => exact Or.inr ⟨stream, _, rfl, rfl⟩

/-- The cursor is all that `_advance` moves. -/
theorem advance_keeps (db : Db) :
    (advance db).observation.blocks = db.observation.blocks ∧
      (advance db).observation.archive = db.observation.archive := by
  rcases @advance_cases db with h | ⟨_, _, -, h⟩ <;> rw [h] <;> exact ⟨rfl, rfl⟩

theorem advance_blocks : (advance db).observation.blocks = db.observation.blocks :=
  (advance_keeps db).1

/-- What a record does: it keeps the capture, and either it warns of conflicts, or it
saves the block. -/
theorem record_cases {source : Source} {capture : Option BlockCapture} {height : Option ℕ}
    (h : record db source capture height = .ok db') :
    ∃ stream, db.observation.stream = some stream ∧
      source.attemptId ∉ db.observation.archive.captureAttempts ∧
      ((capture = none ∧ db' = observeHeight (keep db source height true) stream height) ∨
        ∃ c, capture = some c ∧
          (0 < c.blocksPerRound ∧ c.height / c.blocksPerRound + 1 = c.round) ∧
          ((conflictsWith db c ≠ [] ∧ db' = observeHeight
              (warn (keep db (source.of c) (some c.height) true) (conflictsWith db c)) stream
              (some c.height)) ∨
            (conflictsWith db c = [] ∧ ∃ saved, saved = save (observeHeight
                (keep db (source.of c) (some c.height) false) stream (some c.height)) (source.of c) c ∧
              db' = putIndex (advance saved) (trackCapture saved.observation.blocks
                saved.observation.archive (source.of c) c.blockId c.height)))) := by
  simp only [record, bind_eq_ok, fetch_eq_ok, require_eq_ok, exists_const] at h
  obtain ⟨stream, hstream, hnew, h⟩ := h
  refine ⟨stream, hstream, hnew, ?_⟩
  cases capture with
  | none =>
      obtain rfl := Except.ok.inj h
      exact Or.inl ⟨rfl, rfl⟩
  | some c =>
      simp only [bind_eq_ok, require_eq_ok, exists_const] at h
      obtain ⟨hround, h⟩ := h
      refine Or.inr ⟨c, rfl, hround, ?_⟩
      split at h
      next hconflict =>
        obtain rfl := Except.ok.inj h
        exact Or.inl ⟨hconflict, rfl⟩
      next hconflict =>
        obtain rfl := Except.ok.inj h
        refine Or.inr ⟨not_not.mp hconflict, _, rfl, ?_⟩
        obtain ⟨hblocks, harchive⟩ := advance_keeps (save (observeHeight
          (keep db (source.of c) (some c.height) false) stream (some c.height)) (source.of c) c)
        rw [← hblocks, ← harchive]
        rfl

theorem resolve_cases {index : ℕ} {proof : Result Unit} (h : resolve db index proof = .ok db') :
    db' = db ∨ ∃ i alert, db.observation.conflicts[i]? = some alert ∧
      db' = advance (settle db i alert) := by
  simp only [resolve, bind_eq_ok, fetch_eq_ok] at h
  obtain ⟨alert, halert, h⟩ := h
  split at h
  next =>
    obtain rfl := Except.ok.inj h
    exact Or.inl rfl
  next =>
    simp only [bind_eq_ok, require_eq_ok, fetch_eq_ok, exists_const, pure_eq_ok] at h
    obtain ⟨_, -, -, _, -, rfl⟩ := h
    exact Or.inr ⟨index, alert, halert, rfl⟩

theorem keep_frame (db : Db) (source : Source) (height : Option ℕ) (failed : Bool) :
    ∃ archive, keep db source height failed = db.putArchive archive := ⟨_, rfl⟩

theorem save_frame {source : Source} {capture : BlockCapture} :
    (capture.blockId ∈ db.observation.blocks ∧ save db source capture = db) ∨
      (capture.blockId ∉ db.observation.blocks ∧ save db source capture =
        { db with observation := { db.observation with
          blocks := AList.insert capture.blockId (capture.block source.attemptId db.clock)
            db.observation.blocks } }) := by
  unfold save
  split
  next h => exact Or.inl ⟨h, rfl⟩
  next h => exact Or.inr ⟨h, rfl⟩

def putPolicies (db : Db) (policies : List MissingBlockPolicy) : Db :=
  { db with observation := { db.observation with policies } }

def putWaivers (db : Db) (gapWaivers : Table ℕ GapWaiver) : Db :=
  { db with observation := { db.observation with gapWaivers } }

theorem advance_frame (db : Db) : ∃ observation, advance db = { db with observation } := by
  rcases @advance_cases db with h | ⟨_, _, -, h⟩ <;> exact ⟨_, h⟩

/-- A record writes only tables about observed blocks. -/
theorem record_frame {source : Source} {capture : Option BlockCapture} {height : Option ℕ}
    (h : record db source capture height = .ok db') :
    ∃ observation, db' = { db with observation } := by
  obtain ⟨stream, -, -, hcases⟩ := record_cases h
  rcases hcases with ⟨-, rfl⟩ | ⟨c, -, -, ⟨-, rfl⟩ | ⟨-, saved, hsaved, rfl⟩⟩
  · exact ⟨_, rfl⟩
  · exact ⟨_, rfl⟩
  · obtain ⟨_, hadvance⟩ := advance_frame saved
    rw [hadvance, hsaved]
    rcases save_frame with ⟨-, hsave⟩ | ⟨-, hsave⟩ <;> (rw [hsave]; exact ⟨_, rfl⟩)

theorem initializeStore_cases {launchHeight : ℕ} (h : initializeStore db launchHeight = .ok db') :
    db' = db ∨ (db.observation.stream = none ∧ db' = putStream db
      { launchHeight, contiguousHeight := launchHeight - 1,
        latestSeenHeight := launchHeight - 1 }) := by
  unfold initializeStore at h
  split at h
  next =>
    simp only [bind_eq_ok, require_eq_ok, exists_const, pure_eq_ok] at h
    exact Or.inl h.2.symm
  next hnone => exact Or.inr ⟨hnone, (Except.ok.inj h).symm⟩

theorem setGapPolicy_cases {maxMissing warnMissing : ℕ} {actor reason : String}
    (h : setGapPolicy db maxMissing warnMissing actor reason = .ok db') :
    db' = db ∨ ∃ policies, db' = putPolicies db policies := by
  simp only [setGapPolicy, bind_eq_ok, require_eq_ok, exists_const] at h
  obtain ⟨-, -, _, -, h⟩ := h
  split at h
  · exact Or.inl (Except.ok.inj h).symm
  · exact Or.inr ⟨_, (Except.ok.inj h).symm⟩

theorem waivePrelaunchGap_cases {height : ℕ} {actor reason : String} {evidence : Json}
    (h : waivePrelaunchGap db height actor reason evidence = .ok db') :
    db' = db ∨ ∃ waivers, db' = putWaivers db waivers := by
  simp only [waivePrelaunchGap, bind_eq_ok, require_eq_ok, exists_const] at h
  obtain ⟨-, -, h⟩ := h
  split at h
  next => exact Or.inl (Except.ok.inj h).symm
  next =>
    simp only [bind_eq_ok, require_eq_ok, exists_const, fetch_eq_ok, pure_eq_ok] at h
    obtain ⟨-, -, -, -, -, _, -, _, -, -, -, -, rfl⟩ := h
    exact Or.inr ⟨_, rfl⟩

end BlockStore

namespace Qualifiers

variable {db db' : Db}

/-- The block with its credit. -/
def putCredited (db : Db) (blockId : String) (block : ObservedBlock) (row : CreditedBlock) : Db :=
  { db with observation := { db.observation with
    blocks := AList.insert blockId { block with credited := some row } db.observation.blocks } }

/-- The owners of the pool's benchmarks in a block. -/
def ownersOf (db : Db) (saved : PoolCredit) : List (String × Reservation) :=
  saved.owned.filterMap fun b => (owner db b).map fun r => (b, r)

/-- The credit row of a block. -/
def creditRow (db : Db) (playerId : String) (saved : PoolCredit) : CreditedBlock where
  playerId := playerId
  rule := rule
  ownershipDigest := (ownersOf db saved).map fun o => (o.1, o.2.memberId)
  total := saved.byBenchmark.total fun _ credit => credit
  credits := (ownersOf db saved).filterMap fun o =>
    (saved.byBenchmark.lookup o.1).map fun credit => BenchmarkCredit.mk o.1 o.2.memberId credit

theorem creditBlock_cases {blockId playerId : String} {saved : PoolCredit}
    (h : creditBlock db blockId playerId saved = .ok db') :
    db' = db ∨ ∃ block, db.observation.blocks.lookup blockId = some block ∧
      block.credited = none ∧
      (ownersOf db saved).length = saved.owned.length ∧
      (∀ b ∈ saved.byBenchmark.keys, b ∈ saved.owned) ∧
      (saved.byBenchmark.total fun _ credit => credit) = saved.expected ∧
      saved.byBenchmark.any (fun _ credit => credit < 0) = false ∧
      db' = putCredited db blockId block (creditRow db playerId saved) := by
  simp only [creditBlock, bind_eq_ok, require_eq_ok, exists_const, fetch_eq_ok] at h
  obtain ⟨block, hblock, ⟨howners, -, -, hkeys⟩, htotal, h⟩ := h
  split at h
  next =>
    simp only [bind_eq_ok, require_eq_ok, exists_const, pure_eq_ok] at h
    exact Or.inl h.2.symm
  next hnone =>
    simp only [bind_eq_ok, require_eq_ok, exists_const, pure_eq_ok] at h
    exact Or.inr ⟨block, hblock, hnone, howners, hkeys, htotal, h.1, h.2.symm⟩

end Qualifiers

end TigPool
