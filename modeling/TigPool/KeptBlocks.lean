/-
# `TigPool.KeptBlocks` — kept blocks stay readable

A block is read from its compact copy, if it has one, and from its raw capture otherwise.  A
capture that names the pool's player is compact from the start, and a copy is made of a full
capture that names it; so the blocks that `record` saves are never copied.  The chunks
behind the capture of a saved block are stored as long as the capture is not expired, whatever
captures come in between and in whatever order; and of a block that lies above the floor, or
from which work with open collateral was selected, the capture does not expire.
-/
import TigPool.ChunkLife
import TigPool.CreditedFloor
import TigPool.PoolView
import TigPool.RoundPot

namespace TigPool

open Basis

/-- Is there evidence to read the block from: a raw capture or a compact copy that has not
expired? -/
def Db.evidenced (db : Db) (blockId : String) (block : ObservedBlock) : Bool :=
  db.rawExpired block = false ∨ db.copied blockId = true

namespace Sys

variable {s s' : Sys} {a : Action} {allowed : Sys → Action → Prop}

theorem Reachable.any (h : Reachable allowed s) : Reachable Any s := by
  obtain ⟨s₀, h₀, hrun⟩ := h
  exact ⟨s₀, h₀, hrun.mono fun _ _ _ => trivial⟩

/-! ## The chunks of saved blocks -/

/-- The chunks of the captures behind saved blocks are stored, and rows bound them. -/
structure ChunksKept (s : Sys) : Prop where
  rows : ∃ exposed, s.RowsKept exposed
  stored : ∀ {id attempt digest}, s.Saves id →
    s.db.observation.archive.captureAttempts.lookup id = some attempt →
    attempt.expired = false → digest ∈ attempt.references →
    digest ∈ s.db.observation.archive.observationChunks

theorem Step.chunksKept (hr : Reachable Any s) (hi : ChunksKept s) (h : Step s a s') :
    ChunksKept s' := by
  obtain ⟨exposed, hrows⟩ := hi.rows
  refine ⟨⟨_, h.rowsKept hr hrows⟩, ?_⟩
  intro id attempt digest hsaves hattempt hlive hmem
  have hsaved : s.db.observation.archive.captureAttempts.lookup id = some attempt → s.Saves id :=
    fun hold => h.saves_back hr.lawful
      (AList.lookup_isSome.mp (Option.isSome_of_eq_some hold)) hsaves
  refine h.stored hr.lawful hattempt hlive hmem
    (fun hold => hi.stored (hsaved hold) hold hlive hmem) fun r hold hrow => ?_
  rcases hrows.rows id attempt digest r hold hlive hmem hrow with hbound | ⟨-, hnot⟩
  · exact Or.inl hbound
  · exact absurd (hsaved hold) hnot

theorem Reachable.chunksKept (h : Reachable Any s) : ChunksKept s := by
  refine h.invariant (fun s hs => ⟨⟨[], hs.rowsKept⟩, ?_⟩)
    fun _ _ _ _ hr hi hstep => hstep.chunksKept hr hi
  intro id attempt digest _ hattempt
  rw [hs.archive] at hattempt
  cases hattempt

/-! ## No copies -/

/-- A copy is made of a full capture that names the pool's player, and the capture of a saved
block that does is compact. -/
theorem Reachable.uncopied (h : Reachable Any s) (id : String) :
    s.db.observation.archive.compactBlockCopies.lookup id = none := by
  have hall : ∀ id, s.db.observation.archive.compactBlockCopies.lookup id = none := by
    refine Reachable.invariant
      (I := fun s => ∀ id, s.db.observation.archive.compactBlockCopies.lookup id = none) h ?_ ?_
    · intro s hs id
      rw [hs.archive]
      rfl
    · intro s a s' _ hr hi hstep id
      by_cases ho : ∃ o, a = .observe o
      · obtain ⟨o, rfl⟩ := ho
        cases hstep with
        | @observe db db' held _ hstep =>
            have hchange := hstep.changes
            change db'.observation.archive.compactBlockCopies.lookup id = none
            generalize db'.observation.archive = archive at hchange ⊢
            cases hchange with
            | copied hblock hattempt hraw hplayer _ =>
                have hcompact := hr.compacted hblock hattempt (by rw [hplayer]; rfl)
                rw [hraw] at hcompact
                cases hcompact
            | copiesExpired =>
                show (Table.mapVals _ _).lookup id = none
                rw [Table.lookup_mapVals, hi id]
                rfl
            | _ => exact hi id
      · rw [hstep.observation hr.lawful fun o ha => ho ⟨o, ha⟩]
        exact hi id
  exact hall id

theorem Reachable.evidenced_iff (h : Reachable Any s) {id : String} {b : ObservedBlock} :
    s.db.evidenced id b = true ↔ s.db.rawExpired b = false := by
  have hcopied : s.db.copied id = false := by
    rw [Db.copied, h.uncopied id]
    rfl
  rw [Db.evidenced, hcopied]
  simp

/-- A saved block with evidence and without conflicts is read as it was saved. -/
theorem Reachable.reads (h : Reachable Any s) {id : String} {b : ObservedBlock}
    (hb : s.db.observation.blocks.lookup id = some b)
    (hnone : Reports.hasUnresolvedConflict s.db b.height = false)
    (hevidenced : s.db.evidenced id b = true) : BlockStore.read s.db id = .ok b.snapshot := by
  simp only [BlockStore.read, bind_eq_ok, require_eq_ok, exists_const, fetch_eq_ok]
  obtain ⟨attempt, hattempt, -⟩ := h.captured hb
  have hraw := h.evidenced_iff.mp hevidenced
  rw [Db.rawExpired, hattempt] at hraw
  refine ⟨b, hb, hnone, ?_⟩
  rw [h.uncopied id]
  simp only [bind_eq_ok, require_eq_ok, exists_const, fetch_eq_ok, pure_eq_ok]
  exact ⟨attempt, hattempt, hraw,
    fun digest hmem => h.chunksKept.stored ⟨id, b, hb, rfl⟩ hattempt hraw hmem, trivial⟩

/-- Is there a saved block above the height?  Below all heights none is needed. -/
def Outgrown (s : Sys) (height : ℤ) : Prop :=
  height < 0 ∨ ∃ id b, s.db.observation.blocks.lookup id = some b ∧ height < b.height

theorem Step.outgrown (hs : s.Lawful) (h : Step s a s') {height : ℤ} (hout : s.Outgrown height) :
    s'.Outgrown height := by
  refine hout.imp_right ?_
  rintro ⟨id, b, hb, hlt⟩
  obtain ⟨b', hb', hx⟩ := h.blocks_extend hs hb
  exact ⟨id, b', hb', by rw [hx.height]; exact hlt⟩

/-- A look takes the next round of the plan, or stops. -/
theorem look_rest {db : Db} {plan plan' : Retention.Plan} (h : Retention.look db plan = .ok plan') :
    plan'.length = plan.length ∧ plan'.todo ⊆ plan.todo := by
  unfold Retention.look at h
  split at h
  next =>
    obtain rfl := Except.ok.inj h
    exact ⟨rfl, List.Subset.refl _⟩
  next round todo htodo =>
    have hnone : ([] : List ℕ) ⊆ plan.todo := List.nil_subset _
    split at h
    next =>
      simp only [bind_eq_ok] at h
      obtain ⟨gaps, -, h⟩ := h
      split at h <;> obtain rfl := Except.ok.inj h
      · exact ⟨rfl, htodo ▸ List.subset_cons_self ..⟩
      · exact ⟨rfl, hnone⟩
    next =>
      obtain rfl := Except.ok.inj h
      exact ⟨rfl, hnone⟩

/-- The rounds of a new plan are over: there is a block of a later one. -/
theorem Reachable.plan_todo (h : Reachable Any s) {policy : Retention.Policy}
    {coveredUntil now : Time} {round : ℕ}
    (hround : round ∈ (Retention.plan s.db policy coveredUntil now).todo) :
    s.Outgrown ((round * (Retention.plan s.db policy coveredUntil now).length : ℕ) - 1) := by
  unfold Retention.plan at hround ⊢
  cases hhead : BlockStore.highest s.db.observation.blocks with
  | none =>
      refine Or.inl ?_
      simp only [Option.elim]
      omega
  | some head =>
      simp only [hhead, Option.elim, List.mem_range'_1] at hround ⊢
      have hb := BlockStore.highest_mem hhead
      refine Or.inr ⟨head.1, head.2, hb, ?_⟩
      have hlawful := (h.block_lawful hb).round
      have hle : round ≤ head.2.height / head.2.blocksPerRound := by omega
      have hmul := (Nat.mul_le_mul_right _ hle).trans (Nat.div_mul_le_self head.2.height _)
      omega

/-- Floors and plans lie below the newest block. -/
structure FloorOutgrown (s : Sys) : Prop where
  floor : s.Outgrown s.db.observation.archive.retentionFloors.blockHeight
  plan : ∀ {plan}, s.held.plan = some plan → s.Outgrown plan.blockHeight ∧
    ∀ round ∈ plan.todo, s.Outgrown ((round * plan.length : ℕ) - 1)
  targets : ∀ {plan}, plan ∈ s.held.targets →
    plan.blockHeight ≤ s.db.observation.archive.retentionFloors.blockHeight

theorem Step.floorOutgrown (hr : Reachable Any s) (hi : FloorOutgrown s) (h : Step s a s') :
    FloorOutgrown s' where
  floor := by
    rcases (h.floor hr.lawful).2 with heq | ⟨plan, hplan, heq⟩
    · rw [heq]
      exact h.outgrown hr.lawful hi.floor
    · rw [heq]
      exact h.outgrown hr.lawful (hi.plan hplan).1
  plan {plan'} hplan' := by
    have hold : ∀ {plan}, s.held.plan = some plan → s'.Outgrown plan.blockHeight ∧
        ∀ round ∈ plan.todo, s'.Outgrown ((round * plan.length : ℕ) - 1) := fun hplan =>
      ⟨h.outgrown hr.lawful (hi.plan hplan).1,
        fun round hround => h.outgrown hr.lawful ((hi.plan hplan).2 round hround)⟩
    cases h with
    | hold h =>
        cases h with
        | plan =>
            obtain rfl := Option.some.inj hplan'
            exact ⟨hi.floor, fun round hround => hr.plan_todo hround⟩
        | look hheld hlook =>
            obtain rfl := Option.some.inj hplan'
            obtain ⟨hlength, hsub⟩ := look_rest hlook
            obtain ⟨hheight, htodo⟩ := hold hheld
            refine ⟨?_, fun round hround => by rw [hlength]; exact htodo round (hsub hround)⟩
            rcases look_cases hlook with heq | ⟨round, hnext, heq, -⟩
            · rw [heq]
              exact hheight
            · rw [heq]
              exact htodo round (List.mem_of_mem_head? hnext)
        | abandonPlan => cases hplan'
        | _ => exact hold hplan'
    | observe h =>
        change Held.plan (Held.observe _ _ _ _) = some plan' at hplan'
        simp only [Held.observe] at hplan'
        split at hplan'
        · cases hplan'
        · exact hold hplan'
    | _ => exact hold hplan'
  targets hplan := by
    rcases h.targets hplan with hmem | heq
    · exact (hi.targets hmem).trans (h.floor hr.lawful).1
    · exact heq.le

theorem Reachable.floorOutgrown (h : Reachable Any s) : FloorOutgrown s := by
  refine h.invariant (fun s hs => ?_) fun _ _ _ _ hr hi hstep => hstep.floorOutgrown hr hi
  refine ⟨?_, fun hplan => ?_, fun hplan => ?_⟩
  · rw [hs.archive]
    exact Or.inl (by decide)
  · rw [hs.held] at hplan
    cases hplan
  · rw [hs.held] at hplan
    cases hplan

/-- Is the evidence of the block needed: does it lie above the floor, or does open work rest
on it? -/
def Needs (s : Sys) (id : String) (b : ObservedBlock) : Prop :=
  s.db.observation.archive.retentionFloors.blockHeight < b.height ∨
    Retention.selectedBy s.db id = true

/-- What a run carries out does not apply to a block whose evidence is needed. -/
theorem Needs.not_target (hi : FloorOutgrown s) {id : String} {b : ObservedBlock}
    (hneeds : s.Needs id b) {plan : Retention.Plan} (hplan : plan ∈ s.held.targets)
    (hle : (b.height : ℤ) ≤ plan.blockHeight) (hclosed : Retention.selectedBy s.db id = false) :
    False := by
  rcases hneeds with hlt | hselected
  · exact absurd (hle.trans (hi.targets hplan)) (not_le.mpr hlt)
  · rw [hselected] at hclosed
    cases hclosed

/-- The capture of a block whose evidence is needed does not expire. -/
theorem Step.evidenced (hr : Reachable Any s) (h : Step s a s') {id : String}
    {b b' : ObservedBlock} (hb : s.db.observation.blocks.lookup id = some b) (hx : b.Extends b')
    (hneeds : s.Needs id b) (hraw : s.db.rawExpired b = false) : s'.db.rawExpired b' = false := by
  obtain ⟨attempt, hattempt, hheight, hblock⟩ := hr.captured hb
  have hevolves := h.attempts hr.lawful b.attemptId
  rw [Db.rawExpired, hx.attemptId]
  rw [Db.rawExpired, hattempt] at hraw
  rw [hattempt] at hevolves
  generalize s'.db.observation.archive.captureAttempts.lookup b.attemptId = o at hevolves ⊢
  cases hevolves with
  | same => exact hraw
  | turned hturn =>
      obtain ⟨-, ⟨rfl, plan, hplan, hexpirable⟩ | ⟨covered, hprunable⟩⟩ := hturn
      · obtain ⟨-, hunder, -, hclosed⟩ := of_decide_eq_true hexpirable
        rw [hheight] at hunder
        rw [hblock] at hclosed
        refine (hneeds.not_target hr.floorOutgrown hplan ?_ ?_).elim
        · simpa using hunder
        · simpa using hclosed
      · -- A pruning finds a copy of the block.
        obtain ⟨-, -, hany⟩ := of_decide_eq_true hprunable
        obtain ⟨id₂, b₂, -, hparts⟩ := Table.any_iff.mp hany
        obtain ⟨-, hcopy, -⟩ := of_decide_eq_true hparts
        rw [hr.uncopied id₂] at hcopy
        cases hcopy

end Sys

/-! ## Work rests on the newest block -/

section

variable {db db' : Db}

namespace WorkRequests

variable {blockId : String} {choose : WorkRequest → Result (Option Selection)}
  {around : Surroundings} {pilot : WorkRequest → Result Unit} {fresh : FreshIds}
  {queue : List Uuid} {out : Option Uuid} {db₀ : Db} (hchoose : Chooses db₀ blockId choose)
  {id : Uuid}
  {r : Reservation}

include hchoose

end WorkRequests

end

namespace Sys

variable {s s' : Sys} {a : Action}

end Sys

/-! ## Every run -/

end TigPool
