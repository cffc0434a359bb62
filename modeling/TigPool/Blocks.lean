/-
# `TigPool.Blocks` — what can happen to the block saved under an id

A block is saved once, uncredited, in the round that its height belongs to; later it
may be credited, once.  Nothing else ever happens to it.
-/
import TigPool.Service

namespace TigPool

open Basis

namespace ObservedBlock

/-- A block as `record` saves it. -/
structure Saved (b : ObservedBlock) : Prop where
  length : 0 < b.blocksPerRound
  round : b.height / b.blocksPerRound + 1 = b.round
  credited : b.credited = none

/-- A block is credited. -/
def Turns (b b' : ObservedBlock) : Prop :=
  b.credited = none ∧ ∃ row, b' = { b with credited := some row }

/-- The block belongs to the round of its height. -/
structure Lawful (b : ObservedBlock) : Prop where
  length : 0 < b.blocksPerRound
  round : b.height / b.blocksPerRound + 1 = b.round

/-- The same block, and no credit of it is lost. -/
structure Extends (b b' : ObservedBlock) : Prop where
  facts : { b' with credited := none } = { b with credited := none }
  credited : Stays b.credited b'.credited

theorem Extends.refl (b : ObservedBlock) : b.Extends b := ⟨rfl, .refl _⟩

theorem Extends.trans {b b' b'' : ObservedBlock} (h : b.Extends b') (h' : b'.Extends b'') :
    b.Extends b'' :=
  ⟨h'.facts.trans h.facts, h.credited.trans h'.credited⟩

theorem Turns.extends {b b' : ObservedBlock} (h : b.Turns b') : b.Extends b' := by
  obtain ⟨hnone, row, rfl⟩ := h
  exact ⟨rfl, .of_none hnone⟩

namespace Extends

variable {b b' : ObservedBlock}

theorem height (h : b.Extends b') : b'.height = b.height := by
  have hfacts := congrArg ObservedBlock.height h.facts
  exact hfacts

theorem previousId (h : b.Extends b') : b'.previousId = b.previousId := by
  have hfacts := congrArg ObservedBlock.previousId h.facts
  exact hfacts

theorem round (h : b.Extends b') : b'.round = b.round := by
  have hfacts := congrArg ObservedBlock.round h.facts
  exact hfacts

theorem blocksPerRound (h : b.Extends b') : b'.blocksPerRound = b.blocksPerRound := by
  have hfacts := congrArg ObservedBlock.blocksPerRound h.facts
  exact hfacts

theorem attemptId (h : b.Extends b') : b'.attemptId = b.attemptId := by
  have hfacts := congrArg ObservedBlock.attemptId h.facts
  exact hfacts

end Extends

end ObservedBlock

/-- What a transaction makes of the saved blocks. -/
inductive ObservedBlock.Changes (db : Db) : ObservationAction → Table String ObservedBlock → Prop
  | same {a : ObservationAction} : Changes db a db.observation.blocks
  | saved {source : BlockStore.Source} {c : BlockStore.BlockCapture} {seen : Option ℕ} :
      0 < c.blocksPerRound ∧ c.height / c.blocksPerRound + 1 = c.round →
      BlockStore.conflictsWith db c = [] → c.blockId ∉ db.observation.blocks →
      Changes db (.record source (some c) seen)
        (AList.insert c.blockId (c.block source.attemptId db.clock) db.observation.blocks)
  | credited {blockId playerId : String} {block : ObservedBlock} {row : CreditedBlock} :
      db.observation.blocks.lookup blockId = some block → block.credited = none →
      Changes db (.creditBlock blockId playerId)
        (AList.insert blockId { block with credited := some row } db.observation.blocks)

section

variable {held : Held} {db db' : Db} {a : ObservationAction}

theorem ObservationStep.blockChanges (h : ObservationStep held db a db') :
    ObservedBlock.Changes db a db'.observation.blocks := by
  by_cases ha : a.archives = true
  · obtain ⟨_, rfl⟩ := h.archived ha
    exact .same
  cases h with
  | initializeStore h =>
      rcases BlockStore.initializeStore_cases h with rfl | ⟨-, rfl⟩ <;> exact .same
  | record h =>
      obtain ⟨stream, -, -, hcases⟩ := BlockStore.record_cases h
      rcases hcases with ⟨-, rfl⟩ | ⟨c, rfl, hround, ⟨-, rfl⟩ | ⟨hnone, saved, hsaved, rfl⟩⟩
      · exact .same
      · exact .same
      · show ObservedBlock.Changes db _ (BlockStore.advance saved).observation.blocks
        rw [BlockStore.advance_blocks, hsaved]
        rcases BlockStore.save_frame with ⟨-, heq⟩ | ⟨hfresh, heq⟩ <;> rw [heq]
        · exact .same
        · exact .saved hround hnone hfresh
  | resolve h =>
      rcases BlockStore.resolve_cases h with rfl | ⟨_, _, -, rfl⟩
      · exact .same
      · rw [BlockStore.advance_blocks]
        exact .same
  | setGapPolicy h =>
      rcases BlockStore.setGapPolicy_cases h with rfl | ⟨_, rfl⟩ <;> exact .same
  | waivePrelaunchGap h =>
      rcases BlockStore.waivePrelaunchGap_cases h with rfl | ⟨_, rfl⟩ <;> exact .same
  | creditBlock _ _ h =>
      rcases Qualifiers.creditBlock_cases h with rfl | ⟨_, hblock, hnone, -, -, -, -, rfl⟩
      · exact .same
      · exact .credited hblock hnone
  | _ => exact absurd rfl ha

/-- Only credit changes a block that is saved. -/
theorem ObservationStep.saves {turns : ObservedBlock → ObservedBlock → Prop}
    (h : ObservationStep held db a db') (hcredit : ∀ b p, a ≠ .creditBlock b p) (id : String) :
    Evolves ObservedBlock.Saved turns (db.observation.blocks.lookup id)
      (db'.observation.blocks.lookup id) := by
  have hchange := h.blockChanges
  generalize db'.observation.blocks = blocks at hchange ⊢
  cases hchange with
  | same => exact .same
  | saved hround _ hfresh =>
      refine Evolves.insert ?_ id
      rw [AList.lookup_eq_none.mpr hfresh]
      exact .made ⟨hround.1, hround.2, rfl⟩
  | credited => exact absurd rfl (hcredit _ _)

theorem ObservationStep.blocks (h : ObservationStep held db a db') (id : String) :
    Evolves ObservedBlock.Saved ObservedBlock.Turns
      (db.observation.blocks.lookup id) (db'.observation.blocks.lookup id) := by
  by_cases hcredit : ∃ b p, a = .creditBlock b p
  · obtain ⟨_, _, rfl⟩ := hcredit
    have hchange := h.blockChanges
    generalize db'.observation.blocks = blocks at hchange ⊢
    cases hchange with
    | same => exact .same
    | credited hblock hnone =>
        refine Evolves.insert ?_ id
        rw [hblock]
        exact .turned ⟨hnone, _, rfl⟩
  · exact h.saves (fun b p ha => hcredit ⟨b, p, ha⟩) id

end

namespace Sys

variable {s s' : Sys} {a : Action}

theorem Step.blocks (hs : s.Lawful) (h : Step s a s') (id : String) :
    Evolves ObservedBlock.Saved ObservedBlock.Turns
      (s.db.observation.blocks.lookup id) (s'.db.observation.blocks.lookup id) := by
  by_cases ho : ∃ o, a = .observe o
  · obtain ⟨o, rfl⟩ := ho
    cases h with
    | observe h => exact h.blocks id
  · rw [h.observation hs fun o ha => ho ⟨o, ha⟩]
    exact .same

theorem Step.blocks_extend (hs : s.Lawful) (h : Step s a s') :
    Basis.Extends ObservedBlock.Extends s.db.observation.blocks s'.db.observation.blocks :=
  .of_evolves .refl (fun _ => ObservedBlock.Turns.extends) (h.blocks hs)

variable {allowed : Sys → Action → Prop}

theorem Reachable.block_lawful (h : Reachable allowed s) {id : String} {b : ObservedBlock}
    (hb : s.db.observation.blocks.lookup id = some b) : b.Lawful := by
  have hall : ∀ id b, s.db.observation.blocks.lookup id = some b → b.Lawful := by
    refine Reachable.invariant
      (I := fun s => ∀ id b, s.db.observation.blocks.lookup id = some b → b.Lawful) h ?_ ?_
    · intro s hs id b hb
      rw [hs.blocks] at hb
      cases hb
    · intro s a s' _ hs hI hstep id
      refine (hstep.blocks hs.lawful id).keeps (hI id) (fun b hb => ⟨hb.length, hb.round⟩) ?_
      rintro b b' hb ⟨-, row, rfl⟩
      exact ⟨hb.length, hb.round⟩
  exact hall id b hb

end Sys

end TigPool
