/-
# `TigPool.Captures` — saved blocks and the captures behind them

A block is saved with the capture that established it, and keeps pointing at it.  Captures
stay; what changes is that their manifests expire, by a retention run or by a pruning.
-/
import TigPool.Blocks
import TigPool.Refinement.Archive

namespace TigPool

open Basis

open BlockStore in
/-- A complete capture is kept, whether or not it brings conflicts to light. -/
theorem BlockStore.record_keeps {db db' : Db} {source : Source} {c : BlockCapture}
    {seen : Option ℕ} (h : record db source (some c) seen = .ok db') :
    source.attemptId ∈ db'.observation.archive.captureAttempts := by
  obtain ⟨stream, -, -, ⟨hno, -⟩ | ⟨c', heq, -, ⟨-, rfl⟩ | ⟨hnone, -⟩⟩⟩ := record_cases h
  · cases hno
  · obtain rfl := Option.some.inj heq
    exact AList.mem_insert _ |>.mpr (.inl rfl)
  · obtain rfl := Option.some.inj heq
    rw [(record_archive h hnone).1]
    exact AList.mem_insert _ |>.mpr (.inl rfl)

namespace Sys

variable {s s' : Sys} {a : Action}

theorem Step.record_fresh {source : BlockStore.Source} {capture : Option BlockStore.BlockCapture}
    {seen : Option ℕ} (h : Step s (.observe (.record source capture seen)) s') :
    source.attemptId ∉ s.db.observation.archive.captureAttempts := by
  cases h with
  | observe h =>
      cases h with
      | record h =>
          obtain ⟨_, -, hfresh, -⟩ := BlockStore.record_cases h
          exact hfresh

/-- A saved block was saved before, or this step has recorded it, with its capture. -/
theorem Step.block_back (hs : s.Lawful) (h : Step s a s') {id : String} {b' : ObservedBlock}
    (hb' : s'.db.observation.blocks.lookup id = some b') :
    (∃ b, s.db.observation.blocks.lookup id = some b ∧ b.Extends b') ∨
      ∃ source c seen, a = .observe (.record source (some c) seen) ∧ id = c.blockId ∧
        c.blockId ∉ s.db.observation.blocks ∧ BlockStore.conflictsWith s.db c = [] ∧
        b' = c.block source.attemptId s.db.clock ∧
        s'.db.observation.archive.captureAttempts.lookup source.attemptId
          = some (BlockStore.attemptOf s.db (source.of c) (some c.height) false) := by
  by_cases ho : ∃ o, a = .observe o
  · obtain ⟨o, rfl⟩ := ho
    cases h with
    | @observe db db' held _ h =>
        have hchange := h.blockChanges
        generalize hblocks : db'.observation.blocks = blocks at hchange
        change db'.observation.blocks.lookup id = some b' at hb'
        rw [hblocks] at hb'
        cases hchange with
        | same => exact Or.inl ⟨b', hb', .refl b'⟩
        | @saved source c seen _ hnone hfresh =>
            rcases Table.lookup_insert_cases hb' with ⟨rfl, rfl⟩ | ⟨-, hb⟩
            · refine Or.inr ⟨source, c, seen, rfl, rfl, hfresh, hnone, rfl, ?_⟩
              cases h with
              | record h =>
                  show db'.observation.archive.captureAttempts.lookup source.attemptId = _
                  rw [(BlockStore.record_archive h hnone).1]
                  exact AList.lookup_insert _
            · exact Or.inl ⟨b', hb, .refl b'⟩
        | credited hblock hnone =>
            rcases Table.lookup_insert_cases hb' with ⟨rfl, rfl⟩ | ⟨-, hb⟩
            · exact Or.inl ⟨_, hblock, ObservedBlock.Turns.extends ⟨hnone, _, rfl⟩⟩
            · exact Or.inl ⟨b', hb, .refl b'⟩
  · rw [h.observation hs fun o ha => ho ⟨o, ha⟩] at hb'
    exact Or.inl ⟨b', hb', .refl b'⟩

/-- What a step does to the captures. -/
theorem Step.attempts (hs : s.Lawful) (h : Step s a s') (id : Uuid) : Evolves
    (fun attempt => attempt.expired = false)
    (fun attempt attempt' => attempt' = { attempt with expired := true } ∧
      ((a = .observe .expireCaptures ∧ ∃ plan ∈ s.held.targets,
          Retention.expirable s.db plan attempt = true) ∨
        ∃ covered, Compaction.prunable s.db covered id attempt = true))
    (s.db.observation.archive.captureAttempts.lookup id)
    (s'.db.observation.archive.captureAttempts.lookup id) := by
  by_cases ho : ∃ o, a = .observe o
  · obtain ⟨o, rfl⟩ := ho
    cases h with
    | observe h =>
        refine (h.changes.attempts id).mono ?_ ?_
        · rintro attempt ⟨_, _, _, -, _, _, _, rfl⟩
          rfl
        · rintro attempt attempt' ⟨heq, ⟨rfl, hplan⟩ | hprune⟩
          · exact ⟨heq, Or.inl ⟨rfl, hplan⟩⟩
          · exact ⟨heq, Or.inr hprune⟩
  · rw [h.observation hs fun o ha => ho ⟨o, ha⟩]
    exact .same

/-- Captures stay. -/
theorem Step.attempt_stays (hs : s.Lawful) (h : Step s a s') {id : Uuid}
    (hid : id ∈ s.db.observation.archive.captureAttempts) :
    id ∈ s'.db.observation.archive.captureAttempts := by
  obtain ⟨attempt, hattempt⟩ := Option.isSome_iff_exists.mp (AList.lookup_isSome.mpr hid)
  obtain ⟨attempt', hattempt', -⟩ := (h.attempts hs id).relates (R := fun _ _ => True) trivial
    (fun _ _ => trivial) hattempt
  exact AList.lookup_isSome.mp (Option.isSome_of_eq_some hattempt')

variable {allowed : Sys → Action → Prop}

/-- What holds of a capture when its block is recorded, and still when it has expired, holds
of the capture behind each saved block. -/
theorem Reachable.capture_keeps {P : String → ℕ → CaptureAttempt → Prop}
    (hnew : ∀ (db : Db) (source : BlockStore.Source) (c : BlockStore.BlockCapture),
      P c.blockId c.height (BlockStore.attemptOf db (source.of c) (some c.height) false))
    (hexpired : ∀ id height attempt, P id height attempt →
      P id height { attempt with expired := true })
    (h : Reachable allowed s) {id : String} {b : ObservedBlock}
    (hb : s.db.observation.blocks.lookup id = some b) :
    ∃ attempt, s.db.observation.archive.captureAttempts.lookup b.attemptId = some attempt ∧
      P id b.height attempt := by
  have hall : ∀ id b, s.db.observation.blocks.lookup id = some b →
      ∃ attempt, s.db.observation.archive.captureAttempts.lookup b.attemptId = some attempt ∧
        P id b.height attempt := by
    refine Reachable.invariant (I := fun s => ∀ id b, s.db.observation.blocks.lookup id = some b →
      ∃ attempt, s.db.observation.archive.captureAttempts.lookup b.attemptId = some attempt ∧
        P id b.height attempt) h ?_ ?_
    · intro s hs id b hb
      rw [hs.blocks] at hb
      cases hb
    · intro s a s' _ hr hi hstep id b' hb'
      rcases hstep.block_back hr.lawful hb' with ⟨b, hb, hx⟩ | ⟨_, c, _, -, rfl, -, -, rfl, hkept⟩
      · obtain ⟨attempt, hattempt, hp⟩ := hi id b hb
        obtain ⟨attempt', hattempt', hsame⟩ := (hstep.attempts hr.lawful b.attemptId).relates
          (R := fun t t' => P id b.height t → P id b.height t') (fun hp => hp)
          (fun _ ht hp => by rw [ht.1]; exact hexpired _ _ _ hp) hattempt
        exact ⟨attempt', by rw [hx.attemptId]; exact hattempt', by rw [hx.height]; exact hsame hp⟩
      · exact ⟨_, hkept, hnew _ _ _⟩
  exact hall id b hb

/-- Behind a saved block there is a capture of that block, at its height. -/
theorem Reachable.captured (h : Reachable allowed s) {id : String} {b : ObservedBlock}
    (hb : s.db.observation.blocks.lookup id = some b) :
    ∃ attempt, s.db.observation.archive.captureAttempts.lookup b.attemptId = some attempt ∧
      attempt.height = some b.height ∧ attempt.blockId = some id :=
  h.capture_keeps (P := fun id height attempt =>
      attempt.height = some height ∧ attempt.blockId = some id)
    (fun _ _ _ => ⟨rfl, rfl⟩) (fun _ _ _ hp => hp) hb

/-- A saved block whose capture names the pool's player is kept compact. -/
theorem Reachable.compacted (h : Reachable allowed s) {id : String} {b : ObservedBlock}
    {attempt : CaptureAttempt} (hb : s.db.observation.blocks.lookup id = some b)
    (hattempt : s.db.observation.archive.captureAttempts.lookup b.attemptId = some attempt)
    (hplayer : attempt.poolPlayer.isSome = true) : attempt.compactRef = true := by
  obtain ⟨attempt', hattempt', hcompact⟩ := h.capture_keeps
    (P := fun _ _ attempt => attempt.poolPlayer.isSome = true → attempt.compactRef = true)
    (fun db source c hplayer => by
      show (source.compactRef || source.poolPlayer.isSome) = true
      rw [show source.poolPlayer.isSome = true from hplayer, Bool.or_true])
    (fun _ _ _ hp => hp) hb
  obtain rfl := Option.some.inj (hattempt.symm.trans hattempt')
  exact hcompact hplayer

end Sys

end TigPool
