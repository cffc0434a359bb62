/-
# `TigPool.RetentionDay` — days on which a retention run takes place

The examples about retention begin alike: blocks are recorded, the first one is credited, and
a run looks at two rounds and writes its floor.
-/
import TigPool.Service

namespace TigPool

open Basis

namespace RetentionDay

/-! ## A morning -/

/-- Where a capture comes from; it goes by the name of its block. -/
def source (blockId : String) (chunks : List String) : BlockStore.Source :=
  { FirstDay.source with attemptId := blockId, blockId := some blockId, chunks }

/-- What a collector hands over: a source, and the block and the height it finds. -/
abbrev Handed := BlockStore.Source × Option BlockStore.BlockCapture × Option ℕ

def recordAll : Db → List Handed → Result Db
  | db, [] => .ok db
  | db, (source, capture, height) :: rest => do
      let db ← BlockStore.record db source capture height
      recordAll db rest

def waitUntil (db : Db) (time : Time) : Result Db := do
  require (db.clock ≤ time) (.integrity "time does not run backwards")
  return { db with clock := time }

/-- The first part of a run, up to the floor. -/
def writeFloor (s : Sys) (now : Time) : Result (Retention.Plan × Sys) := do
  require (s.held.plan.isNone) (.integrity "a run is under way")
  let plan ← Retention.look s.db (Retention.plan s.db {} now now)
  let plan ← Retention.look s.db plan
  require (plan.todo = []) (.integrity "rounds are left to look at")
  let db ← Retention.advanceFloors s.db plan
  return (plan, ⟨db, Held.observe { s.held with plan := some plan } .advanceFloors s.db db⟩)

/-- The first block is recorded and credited, then come the others, then a run. -/
def morning (first : Handed) (rest : List Handed) : Result (Retention.Plan × Sys) := do
  let db ← BlockStore.initializeStore migrated 0
  let db ← recordAll db [first]
  let snapshot ← BlockStore.read db "block-0"
  let saved ← Qualifiers.poolCredit snapshot "pool"
  let db ← Qualifiers.creditBlock db "block-0" "pool" saved
  let db ← recordAll db rest
  let db ← waitUntil db 1
  writeFloor ⟨db, { Held.empty with snapshots := [("block-0", snapshot)] }⟩ 1

/-! ## It is reached -/

/-- Reached by a run that keeps notes. -/
def Reached (watch : Sys → Action → List String) (allowed : Sys × List String → Action → Prop)
    (s : Sys) : Prop :=
  ∃ notes, Leads (Watched Sys.Step watch) allowed (⟨migrated, Held.empty⟩, []) (s, notes)

variable {watch : Sys → Action → List String} {allowed : Sys × List String → Action → Prop}

/-- Everything but the batches of a run is allowed. -/
def Quiet (allowed : Sys × List String → Action → Prop) : Prop :=
  ∀ t a, a ≠ .observe .expireCaptures → a ≠ .observe .expireCopies →
    a ≠ .observe .removeChunks → allowed t a

namespace Reached

variable {db db' : Db} {held : Held} {s s' : Sys}

theorem step {a : Action} (h : Reached watch allowed s) (hs : Sys.Step s a s')
    (ha : ∀ notes, allowed (s, notes) a) : Reached watch allowed s' := by
  obtain ⟨notes, hrun⟩ := h
  exact ⟨_, hrun.step (ha notes) (.step hs)⟩

theorem reachable (h : Reached watch allowed s) : Sys.Reachable Sys.Any s := by
  obtain ⟨notes, hrun⟩ := h
  exact ⟨_, Sys.initial_migrated, (hrun.watched (I := fun _ _ => True) trivial
    fun _ _ _ _ _ _ _ _ => trivial).1⟩

variable (hquiet : Quiet allowed)

include hquiet

theorem quiet {a : Action} (h : Reached watch allowed s) (hs : Sys.Step s a s')
    (h₁ : a ≠ .observe .expireCaptures) (h₂ : a ≠ .observe .expireCopies)
    (h₃ : a ≠ .observe .removeChunks) : Reached watch allowed s' :=
  h.step hs fun _ => hquiet _ _ h₁ h₂ h₃

theorem records (h : Reached watch allowed ⟨db, held⟩) (hreadings : held.readings = [])
    {handed : List Handed} (hr : recordAll db handed = .ok db') :
    Reached watch allowed ⟨db', held⟩ := by
  induction handed generalizing db with
  | nil =>
      obtain rfl := Except.ok.inj hr
      exact h
  | cons first rest ih =>
      obtain ⟨source, capture, height⟩ := first
      simp only [recordAll, bind_eq_ok] at hr
      obtain ⟨db₁, h₁, hrest⟩ := hr
      have hstep := h.quiet hquiet (.observe (.record h₁)) (by simp) (by simp) (by simp)
      have hheld : held.observe (.record source capture height) db db₁ = held := by
        simp [Held.observe, ObservationAction.advances, hreadings]
        exact congrArg (fun r => { held with readings := r }) hreadings.symm
      rw [hheld] at hstep
      exact ih hstep hrest

theorem waits {time : Time} (h : Reached watch allowed ⟨db, held⟩)
    (hw : waitUntil db time = .ok db') : Reached watch allowed ⟨db', held⟩ := by
  simp only [waitUntil, bind_eq_ok, require_eq_ok, exists_const, pure_eq_ok] at hw
  obtain ⟨hle, rfl⟩ := hw
  exact h.quiet hquiet (.tick hle) (by simp) (by simp) (by simp)

theorem writesFloor {now : Time} {plan : Retention.Plan} (h : Reached watch allowed s)
    (hreadings : s.held.readings = []) (hr : writeFloor s now = .ok (plan, s')) :
    Reached watch allowed s' ∧ plan ∈ s'.held.targets ∧ s'.held.readings = [] := by
  simp only [writeFloor, bind_eq_ok, require_eq_ok, exists_const, pure_eq_ok, Prod.mk.injEq] at hr
  obtain ⟨hnone, plan₁, h₁, plan₂, h₂, hdone, db₁, hdb, rfl, rfl⟩ := hr
  have hplanned := h.quiet hquiet (.hold (@HoldStep.plan _ _ {} now now
    (Option.isNone_iff_eq_none.mp hnone))) (by simp) (by simp) (by simp)
  have hlooked := hplanned.quiet hquiet (.hold (.look rfl h₁)) (by simp) (by simp) (by simp)
  have hlooked := hlooked.quiet hquiet (.hold (.look rfl h₂)) (by simp) (by simp) (by simp)
  refine ⟨?_, List.mem_cons_self .., by simp [Held.observe, hreadings]⟩
  exact hlooked.quiet hquiet (.observe (.advanceFloors rfl hdone hdb)) (by simp) (by simp) (by simp)

theorem morning {first : Handed} {rest : List Handed} {plan : Retention.Plan}
    (hr : morning first rest = .ok (plan, s)) :
    Reached watch allowed s ∧ plan ∈ s.held.targets ∧ s.held.readings = [] := by
  simp only [RetentionDay.morning, bind_eq_ok] at hr
  obtain ⟨db₁, h₁, db₂, h₂, snapshot, hread, saved, hsaved, db₃, h₃, db₄, h₄, db₅, h₅, hfloor⟩ := hr
  have hstart : Reached watch allowed ⟨migrated, Held.empty⟩ := ⟨[], .refl⟩
  have hwatching := hstart.quiet hquiet (.observe (.initializeStore h₁)) (by simp) (by simp) (by simp)
  have hseen := hwatching.records hquiet rfl h₂
  have hread := hseen.quiet hquiet (.hold (.read hread)) (by simp) (by simp) (by simp)
  have hcredited := hread.quiet hquiet
    (.observe (.creditBlock (List.mem_cons_self ..) hsaved h₃)) (by simp) (by simp) (by simp)
  exact ((hcredited.records hquiet rfl h₄).waits hquiet h₅).writesFloor hquiet rfl hfloor

end Reached

end RetentionDay

end TigPool
