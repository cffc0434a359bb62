/-
# `TigPool.CreditedFloor` — evidence outlives the credit decision

A retention run advances the block floor round by round, and passes a round only when its
coverage is complete with credit; what lies under the floor then expires by height alone.
What matters is therefore what the floor has passed unseen: a block that is saved under it
afterwards, or a block of another round among the heights of the round that was looked at.
-/
import TigPool.CreditLedger
import TigPool.Captures
import TigPool.RetentionDay

namespace TigPool

open Basis

/-! ## What the floor passes unseen -/

/-- Is there a compact copy that has not expired? -/
def Db.copied (db : Db) (blockId : String) : Bool :=
  (db.observation.archive.compactBlockCopies.lookup blockId).any fun copy => copy.expired = false

/-- Has the raw capture of the block expired? -/
def Db.rawExpired (db : Db) (block : ObservedBlock) : Bool :=
  (db.observation.archive.captureAttempts.lookup block.attemptId).any (·.expired)

namespace Sys

/-- Has the floor passed the height, or the plan of a run that has not written it yet? -/
def passed (s : Sys) (height : ℤ) : Bool :=
  height ≤ s.db.observation.archive.retentionFloors.blockHeight ∨
    s.held.plan.any (fun plan => height ≤ plan.blockHeight) = true

/-- The blocks that a step leaves under the floor without a look at their credit: a block
saved where the floor has passed, and those of another round where a plan passes. -/
def passedUnseen (s : Sys) : Action → List String
  | .observe (.record _ (some c) _) =>
      if c.blockId ∉ s.db.observation.blocks ∧ s.passed c.height = true then [c.blockId] else []
  | .hold .look =>
      match s.held.plan.map fun plan => (plan, plan.todo) with
      | some (plan, round :: _) =>
          (s.db.observation.blocks.filter fun _ b => plan.blockHeight < b.height ∧
            (b.height : ℤ) < (round * plan.length : ℕ) ∧ b.round ≠ round).keys
      | _ => []
  | _ => []

/-- Whatever the floor has passed unseen is credited before a run finds the last of its
evidence to expire. -/
structure Sheltered (t : Sys × List String) (a : Action) : Prop where
  captures : a = .observe .expireCaptures → ∀ plan ∈ t.1.held.targets, ∀ id ∈ t.2, ∀ b attempt,
    t.1.db.observation.blocks.lookup id = some b →
    t.1.db.observation.archive.captureAttempts.lookup b.attemptId = some attempt →
    Retention.expirable t.1.db plan attempt = true → t.1.db.copied id = false →
    b.credited.isSome = true
  copies : a = .observe .expireCopies → ∀ plan ∈ t.1.held.targets, ∀ id ∈ t.2, ∀ b copy,
    t.1.db.observation.blocks.lookup id = some b →
    t.1.db.observation.archive.compactBlockCopies.lookup id = some copy →
    Retention.CopyExpirable t.1.db plan id copy → t.1.db.rawExpired b = true →
    b.credited.isSome = true

/-- What retention relies on. -/
structure CreditedFloor (s : Sys) (unseen : List String) : Prop where
  floor : ∀ {id b}, s.db.observation.blocks.lookup id = some b → s.passed b.height = true →
    b.credited.isSome = true ∨ id ∈ unseen
  targets : ∀ {plan}, plan ∈ s.held.targets →
    plan.blockHeight ≤ s.db.observation.archive.retentionFloors.blockHeight
  kept : ∀ {id b}, s.db.observation.blocks.lookup id = some b → s.db.rawExpired b = true →
    b.credited.isSome = true ∨ s.db.copied id = true

/-! ## What one step does -/

variable {s s' : Sys} {a : Action} {unseen : List String}

theorem passed_iff {height : ℤ} : s.passed height = true ↔
    height ≤ s.db.observation.archive.retentionFloors.blockHeight ∨
      ∃ plan, s.held.plan = some plan ∧ height ≤ plan.blockHeight := by
  rw [passed, decide_eq_true_iff, Option.any_eq_true]
  simp

/-- A compact copy stays, or a run expires it. -/
theorem Step.copied (hs : s.Lawful) (h : Step s a s') {id : String}
    (hcopied : s.db.copied id = true) : s'.db.copied id = true ∨
      (a = .observe .expireCopies ∧ ∃ plan ∈ s.held.targets, ∃ copy,
        s.db.observation.archive.compactBlockCopies.lookup id = some copy ∧
          Retention.CopyExpirable s.db plan id copy) := by
  by_cases ho : ∃ o, a = .observe o
  · obtain ⟨o, rfl⟩ := ho
    cases h with
    | @observe db db' held _ h =>
        obtain ⟨copy, hcopy, hlive⟩ := Option.any_eq_true _ _ |>.mp hcopied
        obtain ⟨copy', hcopy', hsame | ⟨-, rfl, plan, hplan, hexpirable⟩⟩ :=
          (h.changes.copies id).relates (R := fun c c' => c' = c ∨ (c' = { c with expired := true } ∧
            _ = ObservationAction.expireCopies ∧ ∃ plan ∈ held.targets,
              Retention.CopyExpirable db plan id c)) (Or.inl rfl) (fun _ => Or.inr) hcopy
        · refine Or.inl ?_
          rw [Db.copied, hcopy', hsame]
          exact hlive
        · exact Or.inr ⟨rfl, plan, hplan, copy, hcopy, hexpirable⟩
  · refine Or.inl ?_
    rw [Db.copied, h.observation hs fun o ha => ho ⟨o, ha⟩]
    exact hcopied

/-- A look at the next round, which is covered, with credit. -/
structure LooksAt (s : Sys) (plan : Retention.Plan) (round : ℕ) : Prop where
  held : s.held.plan = some plan
  next : plan.todo.head? = some round
  covered : ∃ gaps, BlockStore.roundGaps s.db round = .ok gaps ∧ gaps.creditedComplete = true

theorem look_cases {db : Db} {plan plan' : Retention.Plan}
    (h : Retention.look db plan = .ok plan') : plan'.blockHeight = plan.blockHeight ∨
      ∃ round, plan.todo.head? = some round ∧
        plan'.blockHeight = (round * plan.length : ℕ) - 1 ∧
        ∃ gaps, BlockStore.roundGaps db round = .ok gaps ∧ gaps.creditedComplete = true := by
  unfold Retention.look at h
  split at h
  next =>
    obtain rfl := Except.ok.inj h
    exact Or.inl rfl
  next round todo htodo =>
    split at h
    next =>
      simp only [bind_eq_ok] at h
      obtain ⟨gaps, hgaps, h⟩ := h
      split at h
      next hcovered =>
        obtain rfl := Except.ok.inj h
        exact Or.inr ⟨round, by rw [htodo]; rfl, rfl, gaps, hgaps, hcovered.1⟩
      next =>
        obtain rfl := Except.ok.inj h
        exact Or.inl rfl
    next =>
      obtain rfl := Except.ok.inj h
      exact Or.inl rfl

/-- The floors are written from a finished plan, and not moved back. -/
theorem Step.floor (hs : s.Lawful) (h : Step s a s') :
    s.db.observation.archive.retentionFloors.blockHeight
      ≤ s'.db.observation.archive.retentionFloors.blockHeight ∧
    (s'.db.observation.archive.retentionFloors.blockHeight
        = s.db.observation.archive.retentionFloors.blockHeight ∨
      ∃ plan, s.held.plan = some plan ∧
        s'.db.observation.archive.retentionFloors.blockHeight = plan.blockHeight) := by
  by_cases ho : ∃ o, a = .observe o
  · obtain ⟨o, rfl⟩ := ho
    cases h with
    | observe h =>
        rcases h.changes.floor with hsame | ⟨-, plan, hplan, hle, hfloor⟩
        · exact ⟨hsame.ge, Or.inl hsame⟩
        · exact ⟨hle.trans hfloor.ge, Or.inr ⟨plan, hplan, hfloor⟩⟩
  · rw [h.observation hs fun o ha => ho ⟨o, ha⟩]
    exact ⟨le_rfl, Or.inl rfl⟩

/-- A height is passed when a look finds its round covered, or was passed before. -/
theorem Step.passes (hs : s.Lawful) (h : Step s a s') {height : ℤ}
    (hpassed : s'.passed height = true) : s.passed height = true ∨
      ∃ plan round, a = .hold .look ∧ s.LooksAt plan round ∧ plan.blockHeight < height ∧
        height < (round * plan.length : ℕ) := by
  by_cases hold : s.passed height = true
  · exact Or.inl hold
  refine Or.inr ?_
  rw [passed_iff, not_or] at hold
  obtain ⟨hfloor, hplan⟩ := hold
  rcases passed_iff.mp hpassed with hle | ⟨plan', hplan', hle⟩
  · rcases (h.floor hs).2 with heq | ⟨plan, hheld, heq⟩
    · exact absurd (hle.trans heq.le) hfloor
    · exact absurd ⟨plan, hheld, hle.trans heq.le⟩ hplan
  · cases h with
    | hold h =>
        cases h with
        | plan =>
            obtain rfl := Option.some.inj hplan'
            exact absurd hle hfloor
        | look hheld hlook =>
            obtain rfl := Option.some.inj hplan'
            rcases look_cases hlook with heq | ⟨round, hnext, heq, hcovered⟩
            · exact absurd ⟨_, hheld, hle.trans heq.le⟩ hplan
            · refine ⟨_, round, rfl, ⟨hheld, hnext, hcovered⟩, ?_, by omega⟩
              by_contra hlt
              exact hplan ⟨_, hheld, not_lt.mp hlt⟩
        | abandonPlan => cases hplan'
        | _ => exact absurd ⟨plan', hplan', hle⟩ hplan
    | observe h =>
        change Held.plan (Held.observe _ _ _ _) = some plan' at hplan'
        simp only [Held.observe] at hplan'
        split at hplan'
        · cases hplan'
        · exact absurd ⟨plan', hplan', hle⟩ hplan
    | _ => exact absurd ⟨plan', hplan', hle⟩ hplan

/-- Only a plan whose floor is written is carried out. -/
theorem Step.targets (h : Step s a s') {plan : Retention.Plan}
    (hplan : plan ∈ s'.held.targets) : plan ∈ s.held.targets ∨
      plan.blockHeight = s'.db.observation.archive.retentionFloors.blockHeight := by
  cases h with
  | observe h =>
      cases h with
      | advanceFloors hheld _ h =>
          rcases List.mem_append.mp hplan with hmem | hmem
          · rw [hheld] at hmem
            obtain rfl := List.mem_singleton.mp hmem
            simp only [Retention.advanceFloors, bind_eq_ok, require_eq_ok, exists_const,
              pure_eq_ok] at h
            obtain ⟨-, rfl⟩ := h
            exact Or.inr rfl
          · exact Or.inl hmem
      | _ => exact Or.inl hplan
  | hold h => cases h <;> exact Or.inl hplan
  | _ => exact Or.inl hplan

/-! ## Every run -/

/-- Where a plan passes, a block is credited or of another round. -/
theorem LooksAt.credited (hr : Reachable Any s) {plan : Retention.Plan} {round : ℕ}
    (hlook : s.LooksAt plan round) {id : String} {b : ObservedBlock}
    (hb : s.db.observation.blocks.lookup id = some b) (hlt : plan.blockHeight < b.height)
    (hle : (b.height : ℤ) < (round * plan.length : ℕ)) :
    b.credited.isSome = true ∨ id ∈ s.passedUnseen (.hold .look) := by
  by_cases hround : b.round = round
  · obtain ⟨gaps, hgaps, hcomplete⟩ := hlook.covered
    exact Or.inl (BlockStore.covered_credited hr.exact.linked hr.block_lawful hgaps hcomplete hb
      hround)
  · refine Or.inr ?_
    obtain ⟨todo, htodo⟩ : ∃ todo, plan.todo = round :: todo := by
      cases htodo : plan.todo with
      | nil =>
          have hnext := hlook.next
          rw [htodo] at hnext
          cases hnext
      | cons first todo =>
          have hnext := hlook.next
          rw [htodo] at hnext
          obtain rfl := Option.some.inj hnext
          exact ⟨todo, rfl⟩
    simp only [passedUnseen, hlook.held, Option.map_some, htodo]
    refine AList.mem_keys.mp (AList.lookup_isSome.mp (Option.isSome_iff_exists.mpr ⟨b, ?_⟩))
    exact Table.lookup_filter.mpr ⟨hb, decide_eq_true ⟨hlt, hle, hround⟩⟩

variable (hr : Reachable Any s) (hi : CreditedFloor s unseen) (h : Step s a s')

include hr hi h

theorem Step.floor_credited {id : String} {b' : ObservedBlock}
    (hb' : s'.db.observation.blocks.lookup id = some b') (hpassed : s'.passed b'.height = true) :
    b'.credited.isSome = true ∨ id ∈ s.passedUnseen a ++ unseen := by
  rcases h.block_back hr.lawful hb' with ⟨b, hb, hx⟩ | ⟨source, c, seen, rfl, rfl, hfresh, -, rfl, -⟩
  · rw [hx.height] at hpassed
    rcases h.passes hr.lawful hpassed with hpassed | ⟨plan, round, rfl, hlook, hlt, hle⟩
    · exact (hi.floor hb hpassed).imp hx.credited.isSome (List.mem_append_right _)
    · exact (hlook.credited hr hb hlt hle).imp hx.credited.isSome (List.mem_append_left _)
  · rcases h.passes hr.lawful hpassed with hpassed | ⟨_, _, ha, -⟩
    · refine Or.inr (List.mem_append_left _ ?_)
      show c.blockId ∈ ite _ _ _
      rw [if_pos ⟨hfresh, hpassed⟩]
      exact List.mem_cons_self ..
    · cases ha

theorem Step.kept (ha : Sheltered (s, unseen) a) {id : String} {b' : ObservedBlock}
    (hb' : s'.db.observation.blocks.lookup id = some b') (hraw : s'.db.rawExpired b' = true) :
    b'.credited.isSome = true ∨ s'.db.copied id = true := by
  rcases h.block_back hr.lawful hb' with ⟨b, hb, hx⟩ | ⟨source, c, seen, -, -, -, -, rfl, hattempt⟩
  · obtain ⟨attempt, hattempt, hheight, -⟩ := hr.captured hb
    -- What lies under a floor that is written is credited, or was passed unseen.
    have hunder : ∀ plan ∈ s.held.targets, (b.height : ℤ) ≤ plan.blockHeight →
        b.credited.isSome = true ∨ id ∈ unseen := fun plan hplan hle =>
      hi.floor hb (passed_iff.mpr (Or.inl (hle.trans (hi.targets hplan))))
    have hcopies : s.db.rawExpired b = true → s.db.copied id = true →
        b'.credited.isSome = true ∨ s'.db.copied id = true := by
      intro hraw hcopied
      rcases h.copied hr.lawful hcopied with hcopied | ⟨rfl, plan, hplan, copy, hcopy, hexpirable⟩
      · exact Or.inr hcopied
      · refine Or.inl (hx.credited.isSome ?_)
        obtain ⟨b₀, hb₀, hle⟩ := hexpirable.under
        obtain rfl := Option.some.inj (hb.symm.trans hb₀)
        rcases hunder plan hplan hle with hcredited | hunseen
        · exact hcredited
        · exact ha.copies rfl plan hplan id hunseen b copy hb hcopy hexpirable hraw
    have hevolves := h.attempts hr.lawful b.attemptId
    rw [hattempt] at hevolves
    rw [Db.rawExpired, hx.attemptId] at hraw
    generalize s'.db.observation.archive.captureAttempts.lookup b.attemptId = o at hevolves hraw
    cases hevolves with
    | same =>
        have hraw : s.db.rawExpired b = true := by
          rw [Db.rawExpired, hattempt]
          exact hraw
        rcases hi.kept hb hraw with hcredited | hcopied
        · exact Or.inl (hx.credited.isSome hcredited)
        · exact hcopies hraw hcopied
    | turned hturn =>
        obtain ⟨-, ⟨rfl, plan, hplan, hexpirable⟩ | ⟨covered, hprunable⟩⟩ := hturn
        · cases hcopied : s.db.copied id with
          | true =>
              rcases h.copied hr.lawful hcopied with hcopied | ⟨ha, -⟩
              · exact Or.inr hcopied
              · cases ha
          | false =>
              refine Or.inl (hx.credited.isSome ?_)
              have hle : (b.height : ℤ) ≤ plan.blockHeight := by
                have hparts := of_decide_eq_true hexpirable
                simpa [hheight] using hparts.2.1
              rcases hunder plan hplan hle with hcredited | hunseen
              · exact hcredited
              · exact ha.captures rfl plan hplan id hunseen b attempt hb hattempt hexpirable
                  hcopied
        · -- A pruning finds the block of the capture credited.
          refine Or.inl (hx.credited.isSome ?_)
          obtain ⟨-, -, hany⟩ := of_decide_eq_true hprunable
          obtain ⟨id₂, b₂, hb₂, hparts⟩ := Table.any_iff.mp hany
          obtain ⟨hattempt₂, -, hcredited, -⟩ := of_decide_eq_true hparts
          obtain ⟨attempt₂, hlookup₂, hheight₂, -⟩ := hr.captured hb₂
          rw [hattempt₂, hattempt] at hlookup₂
          obtain rfl := Option.some.inj hlookup₂
          have hsame : b₂.height = b.height := Option.some.inj (hheight₂.symm.trans hheight)
          have hids : id₂ = id := @Observation.Linked.unique _ hr.exact.linked b.height _ _ _ _
            ⟨hb₂, by rw [hsame]⟩ ⟨hb, rfl⟩
          rw [hids] at hb₂
          rw [Option.some.inj (hb.symm.trans hb₂)]
          exact hcredited
  · rw [Db.rawExpired, show (c.block source.attemptId s.db.clock).attemptId = source.attemptId
      from rfl, hattempt] at hraw
    cases hraw

theorem Step.creditedFloor (ha : Sheltered (s, unseen) a) :
    CreditedFloor s' (s.passedUnseen a ++ unseen) where
  floor := h.floor_credited hr hi
  targets hplan := by
    rcases h.targets hplan with hmem | heq
    · exact (hi.targets hmem).trans (h.floor hr.lawful).1
    · exact heq.le
  kept := h.kept hr hi ha

omit hr hi h

theorem Initial.creditedFloor (h : s.Initial) : CreditedFloor s [] where
  floor {id b} hb _ := by
    rw [h.blocks] at hb
    cases hb
  targets {plan} hplan := by
    rw [h.held] at hplan
    cases hplan
  kept {id b} hb _ := by
    rw [h.blocks] at hb
    cases hb

theorem watched_creditedFloor {s₀ : Sys} {unseen : List String} (h₀ : s₀.Initial)
    (h : Leads (Watched Step passedUnseen) Sheltered (s₀, []) (s, unseen)) :
    Reachable Any s ∧ CreditedFloor s unseen := by
  obtain ⟨hrun, hi⟩ := h.watched (I := CreditedFloor) h₀.creditedFloor
    fun s notes a s' hrun ha hi hstep => hstep.creditedFloor ⟨s₀, h₀, hrun⟩ hi ha
  exact ⟨⟨s₀, h₀, hrun⟩, hi⟩

end Sys

/-- In every run in which what the floor has passed unseen is credited in time, an observed
block whose raw capture has expired and that has no unexpired compact copy is credited. -/
theorem evidence_outlives_credit {s₀ s : Sys} {unseen : List String} (h₀ : s₀.Initial)
    (h : Leads (Watched Sys.Step Sys.passedUnseen) Sys.Sheltered (s₀, []) (s, unseen)) :
    ∀ id b, s.db.observation.blocks.lookup id = some b → s.db.rawExpired b = true →
      s.db.copied id = false → b.credited.isSome = true := by
  intro id b hb hraw hcopied
  obtain ⟨-, hfloor⟩ := Sys.watched_creditedFloor h₀ h
  rcases hfloor.kept hb hraw with hcredited | hlive
  · exact hcredited
  · rw [hcopied] at hlive
    cases hlive

/-! ## A late backfill

The pool tolerates a missing block.  Its round is covered, and the floor passes; then the
block arrives after all. -/

namespace LateBackfill

open RetentionDay

def first : BlockStore.BlockCapture :=
  { FirstDay.block with blocksPerRound := 2 }

/-- The head of the chain, five rounds on. -/
def head : BlockStore.BlockCapture :=
  { first with blockId := "block-10", height := 10, previousId := "block-9", round := 6 }

/-- The missing block of the first round. -/
def late : BlockStore.BlockCapture :=
  { first with blockId := "block-1", height := 1, previousId := "block-0" }

/-- The first block is saved and credited, the second missing; a run passes their round. -/
def untilMorning : Result (Retention.Plan × Sys) :=
  morning (source "block-0" ["a"], some first, none) [(source "block-10" ["b"], some head, none)]

/-- The run goes on and expires the capture of the first block. -/
def untilNoon : Result Sys := do
  let (plan, s) ← untilMorning
  let db ← Retention.expireCaptures s.db plan ["block-0"]
  return ⟨db, s.held.observe .expireCaptures s.db db⟩

def noon : Sys :=
  untilNoon.toOption.getD ⟨migrated, Held.empty⟩

/-- The missing block is saved, and a later run expires its capture. -/
def untilEvening : Result Sys := do
  let (_, s) ← untilMorning
  let db ← waitUntil s.db 2
  let db ← recordAll db [(source "block-1" ["c"], some late, none)]
  let db ← waitUntil db 3
  let (plan, s) ← writeFloor ⟨db, s.held⟩ 3
  let db ← Retention.expireCaptures s.db plan ["block-1"]
  return ⟨db, s.held.observe .expireCaptures s.db db⟩

def evening : Sys :=
  untilEvening.toOption.getD ⟨migrated, Held.empty⟩

theorem quiet : Quiet Sys.Sheltered :=
  fun _ _ h₁ h₂ _ => ⟨fun h => absurd h h₁, fun h => absurd h h₂⟩

/-- At noon a capture has expired, and its block is credited. -/
theorem evidence_outlives_credit_noon : ∃ b,
    noon.db.observation.blocks.lookup "block-0" = some b ∧ noon.db.rawExpired b = true ∧
      noon.db.copied "block-0" = false ∧ b.credited.isSome = true := by
  have hblock : (noon.db.observation.blocks.lookup "block-0").any (fun b =>
      noon.db.rawExpired b ∧ noon.db.copied "block-0" = false) = true := by decide +kernel
  obtain ⟨b, hb, hgone⟩ := Option.any_eq_true _ _ |>.mp hblock
  obtain ⟨hraw, hcopy⟩ := of_decide_eq_true hgone
  refine ⟨b, hb, hraw, hcopy, ?_⟩
  have hrun : untilNoon = .ok noon := eq_ok_getD (by decide +kernel)
  simp only [untilNoon, bind_eq_ok, Prod.exists, pure_eq_ok] at hrun
  obtain ⟨plan, s, hs, db, hdb, hend⟩ := hrun
  obtain ⟨⟨unseen, hmorning⟩, hplan, -⟩ :=
    @Reached.morning Sys.passedUnseen Sys.Sheltered _ quiet _ _ _ hs
  have hexpires : Sys.Step s (.observe .expireCaptures) noon := by
    rw [← hend]
    exact .observe (.expireCaptures hplan hdb)
  have hcredited : (untilMorning.toOption.all fun m => m.2.held.targets.all fun plan =>
      m.2.db.observation.blocks.any (fun _ b => b.credited.isNone ∧
        (m.2.db.observation.archive.captureAttempts.lookup b.attemptId).any
          (Retention.expirable m.2.db plan) = true) = false) = true := by decide +kernel
  rw [hs] at hcredited
  refine evidence_outlives_credit Sys.initial_migrated
    (hmorning.step ⟨fun _ => ?_, by simp⟩ (.step hexpires)) "block-0" b hb hraw hcopy
  intro plan hplan id _ b attempt hb hattempt hexpirable _
  have hnone := of_decide_eq_true (List.all_eq_true.mp hcredited plan hplan)
  have hnot := Table.any_eq_false.mp hnone id b hb
  rw [hattempt, Option.any_some, hexpirable] at hnot
  simpa [Option.isNone_iff_eq_none, Option.isSome_iff_ne_none] using hnot

/-- By the evening the late block, which was never credited, cannot be read any more. -/
theorem evidence_outlives_credit_fails : Sys.Reachable Sys.Any evening ∧
    ∃ id b, evening.db.observation.blocks.lookup id = some b ∧ evening.db.rawExpired b = true ∧
      evening.db.copied id = false ∧ b.credited = none := by
  have hrun : untilEvening = .ok evening := eq_ok_getD (by decide +kernel)
  refine ⟨?_, ?_⟩
  · simp only [untilEvening, bind_eq_ok, Prod.exists, pure_eq_ok] at hrun
    obtain ⟨_, s, hs, db₁, h₁, db₂, h₂, db₃, h₃, plan, s', hfloor, db₄, h₄, hend⟩ := hrun
    obtain ⟨hmorning, -, hreadings⟩ :=
      @Reached.morning Sys.passedUnseen Sys.Sheltered _ quiet _ _ _ hs
    have hrecorded := ((hmorning.waits quiet h₁).records quiet hreadings h₂).waits quiet h₃
    obtain ⟨hwritten, hplan, -⟩ := hrecorded.writesFloor quiet hreadings hfloor
    rw [← hend]
    exact hwritten.reachable.step trivial (.observe (.expireCaptures hplan h₄))
  · have hfacts : (evening.db.observation.blocks.lookup "block-1").any (fun b =>
        evening.db.rawExpired b = true ∧ evening.db.copied "block-1" = false ∧
          b.credited.isNone) = true := by decide +kernel
    obtain ⟨b, hb, hfacts⟩ := Option.any_eq_true _ _ |>.mp hfacts
    obtain ⟨hraw, hcopied, hnone⟩ := of_decide_eq_true hfacts
    exact ⟨"block-1", b, hb, hraw, hcopied, Option.isNone_iff_eq_none.mp hnone⟩

end LateBackfill

end TigPool
