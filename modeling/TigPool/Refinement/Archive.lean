/-
# `TigPool.Refinement.Archive` — what a step can do to evidence

Captures are added and expire; compact copies are made and expire; chunks come with
captures and go when nothing needs them.  Each change is read off the operations here,
once, with the reason the operation had for it.
-/
import TigPool.Service

namespace TigPool

open Basis

variable {held : Held} {db db' : Db}

/-- The blocks after a complete capture without conflicts. -/
def BlockStore.blocksWith (db : Db) (source : Source) (capture : BlockCapture) :
    Table String ObservedBlock :=
  if capture.blockId ∈ db.observation.blocks then db.observation.blocks
  else AList.insert capture.blockId (capture.block source.attemptId db.clock) db.observation.blocks

/-- The archive with a capture kept. -/
def BlockStore.kept (db : Db) (source : Source) (height : Option ℕ) (failed : Bool) : Archive :=
  (keep db source height failed).observation.archive

/-- The attempt that stands for a capture. -/
def BlockStore.attemptOf (db : Db) (source : Source) (height : Option ℕ) (failed : Bool) :
    CaptureAttempt :=
  { blockId := source.blockId, height, references := source.chunks, failed, createdAt := db.clock,
    poolPlayer := source.poolPlayer, compactRef := source.compactRef }

@[simp] theorem BlockStore.kept_attempts (db : Db) (source : Source) (height : Option ℕ)
    (failed : Bool) : (kept db source height failed).captureAttempts
      = AList.insert source.attemptId (attemptOf db source height failed)
          db.observation.archive.captureAttempts := rfl

open BlockStore in
/-- What a transaction about observed blocks makes of the archive. -/
inductive Archive.Changes (held : Held) (db : Db) : ObservationAction → Archive → Prop
  | same {a : ObservationAction} : Changes held db a db.observation.archive
  | incomplete {source : Source} {seen : Option ℕ} :
      source.attemptId ∉ db.observation.archive.captureAttempts →
      Changes held db (.record source none seen) (kept db source seen true)
  | conflicting {source : Source} {c : BlockCapture} {seen : Option ℕ} :
      source.attemptId ∉ db.observation.archive.captureAttempts → conflictsWith db c ≠ [] →
      Changes held db (.record source (some c) seen) (kept db (source.of c) (some c.height) true)
  | saved {source : Source} {c : BlockCapture} {seen : Option ℕ} :
      source.attemptId ∉ db.observation.archive.captureAttempts → conflictsWith db c = [] →
      Changes held db (.record source (some c) seen)
        { kept db (source.of c) (some c.height) false with
          chunkLastRef := trackCapture (blocksWith db source c)
            (kept db (source.of c) (some c.height) false) source c.blockId c.height }
  | copied {blockId playerId : String} {block : ObservedBlock} {attempt : CaptureAttempt} :
      db.observation.blocks.lookup blockId = some block →
      db.observation.archive.captureAttempts.lookup block.attemptId = some attempt →
      attempt.compactRef = false → attempt.poolPlayer = some playerId →
      blockId ∉ db.observation.archive.compactBlockCopies →
      Changes held db (.backfill blockId playerId) { db.observation.archive with
        compactBlockCopies := AList.insert blockId { playerId, createdAt := db.clock }
          db.observation.archive.compactBlockCopies }
  | reconciled {a : ObservationAction} {blocks : List String} :
      Changes held db a { db.observation.archive with reconciledBlocks := blocks }
  | floors {plan : Retention.Plan} : held.plan = some plan → plan.todo = [] →
      db.observation.archive.retentionFloors.blockHeight ≤ plan.blockHeight →
      db.observation.archive.retentionFloors.captureCutoff ≤ plan.captureCutoff →
      Changes held db .advanceFloors { db.observation.archive with
        retentionFloors := ⟨plan.blockHeight, plan.captureCutoff⟩ }
  | expired {a : ObservationAction} {ids : List Uuid} :
      (∀ id ∈ ids, ∃ attempt, db.observation.archive.captureAttempts.lookup id = some attempt ∧
        ((a = .expireCaptures ∧ ∃ plan ∈ held.targets,
            Retention.expirable db plan attempt = true) ∨
          ∃ covered, Compaction.prunable db covered id attempt = true)) →
      Changes held db a (Retention.putExpired db ids).observation.archive
  | removed {plan : Retention.Plan} {digests : List String} : plan ∈ held.targets →
      (∀ digest ∈ digests, (∃ h, db.observation.archive.chunkLastRef.lookup digest = some h ∧
        (h : ℤ) ≤ plan.blockHeight) ∧ digest ∉ Retention.protectedChunks db plan) →
      Changes held db .removeChunks (Retention.dropChunks db digests
        (ChunkIndex.drop db.observation.archive.chunkLastRef digests)).observation.archive
  | collected {a : ObservationAction} {digests orphans : List String} :
      (∀ digest ∈ digests, digest ∉ Compaction.liveChunks db) →
      Changes held db a (Retention.dropChunks db digests
        (ChunkIndex.drop db.observation.archive.chunkLastRef orphans)).observation.archive
  | copiesExpired {plan : Retention.Plan} : plan ∈ held.targets →
      Changes held db .expireCopies (Retention.expireCopies db plan).observation.archive
  | indexed {newestId : String} {newest : ObservedBlock} :
      highest db.observation.blocks = some (newestId, newest) →
      Changes held db .initializeChunkIndex { db.observation.archive with
        chunkLastRef := ChunkIndex.raise db.observation.archive.chunkLastRef
          (db.observation.archive.observationChunks.filter
            (· ∉ manifestReferences db.observation.archive newest)) newest.height }

/-- A complete capture without conflicts is kept, and the chunk index follows it. -/
theorem BlockStore.record_archive {source : Source} {c : BlockCapture} {seen : Option ℕ}
    (h : record db source (some c) seen = .ok db') (hnone : conflictsWith db c = []) :
    db'.observation.archive = { kept db (source.of c) (some c.height) false with
      chunkLastRef := trackCapture (blocksWith db source c)
        (kept db (source.of c) (some c.height) false) source c.blockId c.height } ∧
      db'.observation.blocks = blocksWith db source c := by
  obtain ⟨stream, -, -, hcases⟩ := record_cases h
  rcases hcases with ⟨hno, -⟩ | ⟨c', heq, -, ⟨hconflict, -⟩ | ⟨-, saved, hsaved, rfl⟩⟩
  · cases hno
  · obtain rfl := Option.some.inj heq
    exact absurd hnone hconflict
  · obtain rfl := Option.some.inj heq
    have hblocks : saved.observation.blocks = blocksWith db source c := by
      rw [hsaved, blocksWith]
      rcases save_frame with ⟨hold, heq⟩ | ⟨hfresh, heq⟩
      · rw [heq, if_pos (show c.blockId ∈ db.observation.blocks from hold)]
        rfl
      · rw [heq, if_neg (show c.blockId ∉ db.observation.blocks from hfresh)]
        rfl
    have harchive : saved.observation.archive = kept db (source.of c) (some c.height) false := by
      rw [hsaved]
      rcases save_frame with ⟨-, heq⟩ | ⟨-, heq⟩ <;> (rw [heq]; rfl)
    rw [← hblocks, ← harchive, ← (advance_keeps saved).2]
    exact ⟨rfl, advance_blocks⟩

theorem BlockStore.record_changes {source : Source} {capture : Option BlockCapture}
    {seen : Option ℕ} (h : record db source capture seen = .ok db') :
    Archive.Changes held db (.record source capture seen) db'.observation.archive := by
  obtain ⟨stream, -, hnew, hcases⟩ := record_cases h
  rcases hcases with ⟨rfl, rfl⟩ | ⟨c, rfl, -, ⟨hconflict, rfl⟩ | ⟨hnone, -⟩⟩
  · exact .incomplete hnew
  · exact .conflicting hnew hconflict
  · rw [(record_archive h hnone).1]
    exact .saved hnew hnone

theorem ObservationStep.changes {a : ObservationAction} (h : ObservationStep held db a db') :
    Archive.Changes held db a db'.observation.archive := by
  cases h with
  | initializeStore h =>
      rcases BlockStore.initializeStore_cases h with rfl | ⟨-, rfl⟩ <;> exact .same
  | record h => exact BlockStore.record_changes h
  | resolve h =>
      rcases BlockStore.resolve_cases h with rfl | ⟨_, _, -, rfl⟩
      · exact .same
      · rw [(BlockStore.advance_keeps _).2]
        exact .same
  | setGapPolicy h =>
      rcases BlockStore.setGapPolicy_cases h with rfl | ⟨_, rfl⟩ <;> exact .same
  | waivePrelaunchGap h =>
      rcases BlockStore.waivePrelaunchGap_cases h with rfl | ⟨_, rfl⟩ <;> exact .same
  | creditBlock _ _ h =>
      rcases Qualifiers.creditBlock_cases h with rfl | ⟨_, -, -, -, -, -, -, rfl⟩ <;> exact .same
  | backfill _ h =>
      rcases Compaction.backfill_cases h with
        rfl | ⟨_, _, hblock, hattempt, hraw, hplayer, hfresh, rfl⟩
      · exact .same
      · exact .copied hblock hattempt hraw hplayer hfresh
  | markReconciled h =>
      simp only [Reconciliation.markReconciled, bind_eq_ok, require_eq_ok, exists_const,
        pure_eq_ok] at h
      obtain ⟨-, rfl⟩ := h
      exact .reconciled
  | advanceFloors hplan htodo h =>
      simp only [Retention.advanceFloors, bind_eq_ok, require_eq_ok, exists_const, pure_eq_ok] at h
      obtain ⟨⟨hle, hcutoff⟩, rfl⟩ := h
      exact .floors hplan htodo hle hcutoff
  | expireCaptures hplan h =>
      simp only [Retention.expireCaptures, bind_eq_ok, require_eq_ok, exists_const,
        pure_eq_ok] at h
      obtain ⟨hids, rfl⟩ := h
      refine .expired fun id hid => ?_
      obtain ⟨attempt, hattempt, hexpirable⟩ := Option.any_eq_true _ _ |>.mp (hids id hid)
      exact ⟨attempt, hattempt, Or.inl ⟨rfl, _, hplan, hexpirable⟩⟩
  | removeChunks hplan h =>
      simp only [Retention.removeChunks, bind_eq_ok, require_eq_ok, exists_const, pure_eq_ok] at h
      obtain ⟨hdigests, rfl⟩ := h
      refine .removed hplan fun digest hdigest => ⟨?_, (hdigests digest hdigest).2⟩
      obtain ⟨height, hheight, hle⟩ := Option.any_eq_true _ _ |>.mp (hdigests digest hdigest).1
      exact ⟨_, hheight, by simpa using hle⟩
  | expireCopies hplan => exact .copiesExpired hplan
  | prune h =>
      simp only [Compaction.prune, bind_eq_ok, require_eq_ok, exists_const, pure_eq_ok] at h
      obtain ⟨hids, rfl⟩ := h
      refine .expired fun id hid => ?_
      obtain ⟨attempt, hattempt, hprunable⟩ := Option.any_eq_true _ _ |>.mp (hids id hid)
      exact ⟨attempt, hattempt, Or.inr ⟨_, hprunable⟩⟩
  | collectUnusedChunks h =>
      simp only [Compaction.collectUnusedChunks, bind_eq_ok, require_eq_ok, exists_const,
        pure_eq_ok] at h
      obtain ⟨hdigests, -, rfl⟩ := h
      exact .collected hdigests
  | initializeChunkIndex h =>
      unfold Retention.initializeChunkIndex at h
      split at h
      next =>
        obtain rfl := Except.ok.inj h
        exact .same
      next _ newest hnewest =>
        simp only [bind_eq_ok, require_eq_ok, exists_const, pure_eq_ok] at h
        obtain ⟨-, rfl⟩ := h
        exact .indexed hnewest

/-- May a retention run expire the compact copy of a block? -/
structure Retention.CopyExpirable (db : Db) (plan : Plan) (blockId : String) (copy : CompactCopy) :
    Prop where
  under : ∃ b, db.observation.blocks.lookup blockId = some b ∧ (b.height : ℤ) ≤ plan.blockHeight
  covered : copy.createdAt ≤ plan.coveredUntil
  closed : selectedBy db blockId = false

namespace Archive.Changes

variable {a : ObservationAction} {archive : Archive}

/-- Copies are made for the player of the backfill; a retention run expires them under
the floor, unless open work rests on the block. -/
theorem copies (h : Changes held db a archive) (id : String) : Evolves
    (fun copy => ∃ block, a = .backfill block copy.playerId ∧ copy.expired = false)
    (fun copy copy' => copy' = { copy with expired := true } ∧ a = .expireCopies ∧
      ∃ plan ∈ held.targets, Retention.CopyExpirable db plan id copy)
    (db.observation.archive.compactBlockCopies.lookup id)
    (archive.compactBlockCopies.lookup id) := by
  cases h with
  | copied _ _ _ _ hfresh =>
      refine Evolves.insert ?_ id
      rw [AList.lookup_eq_none.mpr hfresh]
      exact .made ⟨_, rfl, rfl⟩
  | @copiesExpired plan hplan =>
      show Evolves _ _ _ ((Table.mapVals _ _).lookup id)
      rw [Table.lookup_mapVals]
      cases hcopy : db.observation.archive.compactBlockCopies.lookup id with
      | none => exact .same
      | some copy =>
          rw [Option.map_some]
          split
          next hexpires =>
            obtain ⟨hheight, hcovered, hopen⟩ := hexpires
            obtain ⟨b, hb, hle⟩ := Option.any_eq_true _ _ |>.mp hheight
            exact .turned ⟨rfl, rfl, plan, hplan, ⟨b, hb, by simpa using hle⟩, hcovered,
              by simpa using hopen⟩
          next => exact .same
  | _ => exact .same

/-- Captures come with `record`; a retention run expires them, or a pruning does. -/
theorem attempts (h : Changes held db a archive) (id : Uuid) : Evolves
    (fun attempt => ∃ source capture seen, a = .record source capture seen ∧
      ∃ source height failed, attempt = BlockStore.attemptOf db source height failed)
    (fun attempt attempt' => attempt' = { attempt with expired := true } ∧
      ((a = .expireCaptures ∧ ∃ plan ∈ held.targets, Retention.expirable db plan attempt = true) ∨
        ∃ covered, Compaction.prunable db covered id attempt = true))
    (db.observation.archive.captureAttempts.lookup id) (archive.captureAttempts.lookup id) := by
  have hkept : ∀ {source source' : BlockStore.Source} {capture : Option BlockStore.BlockCapture}
      {seen height : Option ℕ} {failed : Bool}, a = .record source' capture seen →
      source.attemptId ∉ db.observation.archive.captureAttempts →
      Evolves (fun attempt => ∃ source capture seen, a = .record source capture seen ∧
        ∃ source height failed, attempt = BlockStore.attemptOf db source height failed)
      (fun attempt attempt' => attempt' = { attempt with expired := true } ∧
        ((a = .expireCaptures ∧ ∃ plan ∈ held.targets,
            Retention.expirable db plan attempt = true) ∨
          ∃ covered, Compaction.prunable db covered id attempt = true))
      (db.observation.archive.captureAttempts.lookup id)
      ((BlockStore.kept db source height failed).captureAttempts.lookup id) := by
    intro source source' capture seen height failed ha hnew
    rw [BlockStore.kept_attempts, Table.lookup_insert_eq]
    split
    next heq =>
      rw [heq, AList.lookup_eq_none.mpr hnew]
      exact .made ⟨source', capture, seen, ha, source, height, failed, rfl⟩
    next => exact .same
  cases h with
  | incomplete hnew => exact hkept rfl hnew
  | conflicting hnew => exact hkept rfl hnew
  | saved hnew => exact hkept rfl hnew
  | @expired _ ids hids =>
      show Evolves _ _ _ ((Table.mapVals _ _).lookup id)
      rw [Table.lookup_mapVals]
      cases hattempt : db.observation.archive.captureAttempts.lookup id with
      | none => exact .same
      | some attempt =>
          rw [Option.map_some]
          split
          next hmem =>
            obtain ⟨attempt', hattempt', hreason⟩ := hids id hmem
            obtain rfl := Option.some.inj (hattempt.symm.trans hattempt')
            exact .turned ⟨rfl, hreason⟩
          next => exact .same
  | _ => exact .same

/-- Only the floors of a finished plan are written, and floors do not go back. -/
theorem floor (h : Changes held db a archive) :
    archive.retentionFloors.blockHeight = db.observation.archive.retentionFloors.blockHeight ∨
      (a = .advanceFloors ∧ ∃ plan, held.plan = some plan ∧
        db.observation.archive.retentionFloors.blockHeight ≤ plan.blockHeight ∧
        archive.retentionFloors.blockHeight = plan.blockHeight) := by
  cases h with
  | floors hplan _ hle => exact Or.inr ⟨rfl, _, hplan, hle, rfl⟩
  | _ => exact Or.inl rfl

/-- Nor does the time up to which captures without a height may expire. -/
theorem cutoff (h : Changes held db a archive) :
    db.observation.archive.retentionFloors.captureCutoff
      ≤ archive.retentionFloors.captureCutoff := by
  cases h with
  | floors _ _ _ hle => exact hle
  | _ => exact le_rfl

end Archive.Changes

theorem Sys.Step.cutoff {s s' : Sys} {a : Action} (hs : s.Lawful) (h : Sys.Step s a s') :
    s.db.observation.archive.retentionFloors.captureCutoff
      ≤ s'.db.observation.archive.retentionFloors.captureCutoff := by
  by_cases ho : ∃ o, a = .observe o
  · obtain ⟨o, rfl⟩ := ho
    cases h with
    | observe h => exact h.changes.cutoff
  · rw [h.observation hs fun o ha => ho ⟨o, ha⟩]

end TigPool
