/-
# `TigPool.Archive` — captures, their chunks, and how long chunks live

A capture is stored as a manifest and chunks, and captures share chunks.  For a chunk
that the newest block does not use, `chunk_last_ref` has the last height that used it;
retention removes a chunk by this height alone.  The index is kept by differences: a
newest block drops what the block before it used and it does not.

A digest stands for the bytes it was taken of, and a manifest for the digests of all
chunks it leads to.
-/
import TigPool.Reports

namespace TigPool

open Basis

/-- An archive without evidence. -/
def Archive.empty : Archive := ⟨∅, [], ∅, ∅, [], ⟨-1, 0⟩⟩

/-- `manifest_references`: an expired manifest has none. -/
def CaptureAttempt.live (attempt : CaptureAttempt) : List String :=
  if attempt.expired then [] else attempt.references

def Db.putArchive (db : Db) (archive : Archive) : Db :=
  { db with observation := { db.observation with archive } }

/-! ## The chunk index -/

namespace ChunkIndex

/-- `INSERT … ON CONFLICT DO UPDATE SET height=GREATEST(…)`. -/
def raise (index : Table String ℕ) (digests : List String) (height : ℕ) : Table String ℕ :=
  digests.foldr (fun digest t => AList.insert digest (max ((t.lookup digest).getD 0) height) t) index

/-- `UPDATE … SET height=GREATEST(…)`: rows that are there. -/
def lift (index : Table String ℕ) (digests : List String) (height : ℕ) : Table String ℕ :=
  Table.mapVals (fun digest h => if digest ∈ digests then max h height else h) index

/-- `DELETE … WHERE digest=ANY(…)`. -/
def drop (index : Table String ℕ) (digests : List String) : Table String ℕ :=
  digests.foldr AList.erase index

end ChunkIndex

namespace BlockStore

/-- What a collector hands over with a capture. -/
structure Source where
  attemptId : Uuid
  /-- The block that the capture claims to be of. -/
  blockId : Option String
  /-- The digests of the chunks into which the capture is packed. -/
  chunks : List String
  /-- The player that the capture names as the pool's. -/
  poolPlayer : Option String := none
  /-- The capture comes as a compact projection. -/
  compactRef : Bool := false
  /-- What this process remembers about the newest block it has recorded. -/
  latest : Option (String × List String) := none

/-- The chunks behind a saved block. -/
def manifestReferences (archive : Archive) (block : ObservedBlock) : List String :=
  (archive.captureAttempts.lookup block.attemptId).elim [] CaptureAttempt.live

/-- Store the chunks that are not there yet, and the attempt. -/
def keep (db : Db) (source : Source) (height : Option ℕ) (failed : Bool) : Db :=
  let archive := db.observation.archive
  let attempt : CaptureAttempt :=
    { blockId := source.blockId, height, references := source.chunks, failed,
      createdAt := db.clock, poolPlayer := source.poolPlayer, compactRef := source.compactRef }
  db.putArchive { archive with
    observationChunks := archive.observationChunks ++
      source.chunks.filter (· ∉ archive.observationChunks)
    captureAttempts := AList.insert source.attemptId attempt archive.captureAttempts }

/-- The highest block below a height. -/
def below (blocks : Table String ObservedBlock) (height : ℕ) : Option (String × ObservedBlock) :=
  ((blocks.entries.map fun e => (e.1, e.2)).filter fun e => e.2.height < height).argmax
    fun e => e.2.height

/-- The highest block. -/
def highest (blocks : Table String ObservedBlock) : Option (String × ObservedBlock) :=
  (blocks.entries.map fun e => (e.1, e.2)).argmax fun e => e.2.height

/-- What the block before a newest block referenced. -/
def previousReferences (archive : Archive) (latest : Option (String × List String))
    (previousId : String) (previous : ObservedBlock) : List String :=
  match latest with
  | some (id, refs) => if id = previousId then refs else manifestReferences archive previous
  | none => manifestReferences archive previous

/-- `_track`: rows only for chunks that the newest block no longer references. -/
def track (blocks : Table String ObservedBlock) (archive : Archive) (height : ℕ)
    (refs : List String) (latest : Option (String × List String)) : Table String ℕ :=
  let index := archive.chunkLastRef
  if blocks.any fun _ b => height < b.height then
    -- A recovered older block: its references may outlive their recorded last use.
    ChunkIndex.lift index refs height
  else
    match below blocks height with
    | none => index
    | some (previousId, previous) =>
        let dropped := (previousReferences archive latest previousId previous).filter (· ∉ refs)
        ChunkIndex.drop (ChunkIndex.raise index dropped previous.height) refs

/-- The chunk index after a complete capture of a saved block.  A recapture can bring
chunks that the saved block does not use. -/
def trackCapture (blocks : Table String ObservedBlock) (archive : Archive) (source : Source)
    (blockId : String) (height : ℕ) : Table String ℕ :=
  let refs := (blocks.lookup blockId).elim [] (manifestReferences archive)
  let extra := source.chunks.filter (· ∉ refs)
  let last := (highest blocks).elim 0 fun e => e.2.height
  ChunkIndex.raise (track blocks archive height refs source.latest) extra last

def putIndex (db : Db) (index : Table String ℕ) : Db :=
  db.putArchive { db.observation.archive with chunkLastRef := index }

end BlockStore

end TigPool
