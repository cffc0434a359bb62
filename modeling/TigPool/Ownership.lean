/-
# `TigPool.Ownership` — one owner for each benchmark

TIG reveals one track of a precommit, so two proposals can look alike once they are
accepted.  What `matches` cannot tell apart has one match key, and no two precommits with
one key are under way together: a record of TIG is then that of at most one of them.  A
receipt is written for a benchmark that nobody has, and a reservation takes its benchmark
from its receipt.
-/
import TigPool.Outbox
import TigPool.SettledCredit

namespace TigPool

open Basis

/-! ## What cannot be told apart -/

namespace Submissions

/-- The settings of a proposal, once TIG has chosen its track. -/
def chosen (playerId blockId challengeId algorithmId trackId : String) : Json :=
  .obj [("algorithm_id", .str algorithmId), ("block_id", .str blockId),
    ("challenge_id", .str challengeId), ("player_id", .str playerId), ("track_id", .str trackId)]

end Submissions

/-! ## Owners -/

/-- The benchmark is that of the reservation, by its receipt or in its row. -/
def Db.Owns (db : Db) (id : Uuid) (benchmarkId : String) : Prop :=
  (∃ x, db.work.precommitReceipts.lookup id = some x ∧ x.benchmarkId = benchmarkId) ∨
    ∃ r, db.funds.reservations.lookup id = some r ∧ r.benchmarkId = some benchmarkId

namespace Db.Coupled

variable {db db' : Db} {id id' : Uuid} {benchmarkId : String}

/-- A reservation has its benchmark from its receipt. -/
theorem receipt_of_named (hc : db.Coupled) {r : Reservation}
    (hr : db.funds.reservations.lookup id = some r) (hshape : r.Shape)
    (hid : r.benchmarkId = some benchmarkId) :
    ∃ x, db.work.precommitReceipts.lookup id = some x ∧ x.benchmarkId = benchmarkId := by
  obtain ⟨intentId, i, hi, rfl, hkind⟩ := hc.intent hr
  obtain ⟨-, x, hx, hb⟩ :=
    (hc.couples hi hkind hr).2.named hshape (Option.isSome_of_eq_some hid)
  exact ⟨x, hx, Option.some.inj (hb.symm.trans hid)⟩

theorem receipt_of_owns (hc : db.Coupled)
    (hshape : ∀ {id r}, db.funds.reservations.lookup id = some r → r.Shape)
    (h : db.Owns id benchmarkId) :
    ∃ x, db.work.precommitReceipts.lookup id = some x ∧ x.benchmarkId = benchmarkId := by
  rcases h with hx | ⟨r, hr, hid⟩
  · exact hx
  · exact hc.receipt_of_named hr (hshape hr) hid

theorem owner_unique (hc : db.Coupled)
    (hshape : ∀ {id r}, db.funds.reservations.lookup id = some r → r.Shape)
    (h : db.Owns id benchmarkId) (h' : db.Owns id' benchmarkId) : id = id' := by
  obtain ⟨x, hx, hb⟩ := hc.receipt_of_owns hshape h
  obtain ⟨x', hx', hb'⟩ := hc.receipt_of_owns hshape h'
  exact hc.owner hx hx' (hb.trans hb'.symm)

end Db.Coupled

namespace Submissions

variable {db db' : Db} {identity : Uuid}

end Submissions

namespace RecoveryDay

open CreditedDay (benchmarkId chooses confirmed evidence published secondId selection tracks)

/-- The choice of another algorithm. -/
def otherSelection : WorkRequests.Selection :=
  { selection with
    payload := WorkRequests.proposal "pool" "block-0" "challenge" "other" "aws_t3" tracks }

def seenId : String := "cccccccccccccccccccccccccccccccc"

/-- The first and the last record match one proposal; the last, which writes a number in
another way, was there before. -/
def feed : List Json :=
  [CreditedDay.precommit, confirmed secondId "other" "0" (.int 1),
    confirmed seenId "algorithm" "0" (.float "1.0")]

def preflight : Preflight := { ResponseDay.preflight with seenBenchmarks := [seenId] }

/-- The member asks for work twice, and has one benchmark reserved. -/
def waiting : Result Db := do
  let db ← LateDay.queued
  let (db, _) ← WorkRequests.create db "member" "more work" "CPU" "aws_t3" FirstDay.capacity 60
    "more"
  return db

def reserved : Result Db := do
  let db ← waiting
  let (db, _) ← WorkRequests.reserveNext db "block-0" (fun _ => .ok (some selection))
    ["request"] FirstDay.around (fun _ => .ok ()) ⟨"benchmark", "intent"⟩
  return db

/-- Two benchmarks are sent, and no answer comes. -/
def sending : Result Db := do
  let db ← reserved
  let (db, _) ← WorkRequests.reserveNext db "block-0" (fun _ => .ok (some otherSelection))
    ["more"] FirstDay.around (fun _ => .ok ()) ⟨"other", "other intent"⟩
  let db ← Submissions.recordBinary db "benchmark" ResponseDay.url "digest"
  let db ← Submissions.recordBinary db "other" ResponseDay.url "digest"
  let (db, _) ← Submissions.begin db "intent" (some preflight) FirstDay.around
  let (db, _) ← Submissions.begin db "other intent" (some preflight) FirstDay.around
  return db

/-- Both are recovered from the feed, and one is published. -/
def recovering (db : Db) : Result Db := do
  let (db, _) ← Submissions.recoverPrecommit db "intent" feed evidence
  let (db, _) ← Submissions.recoverPrecommit db "other intent" feed evidence
  let (db, _) ← Submissions.publishAssignment db "benchmark"
    CreditedDay.precommit published evidence ""
  return db

def sent : Sys := ⟨sending.toOption.getD migrated, Held.empty⟩
def named : Sys := ⟨(recovering sent.db).toOption.getD migrated, Held.empty⟩

theorem sent_reachable : Sys.Reachable Sys.Whole sent := by
  have hrun : sending = .ok sent.db := eq_ok_getD (by decide +kernel)
  simp only [sending, bind_eq_ok, pure_eq_ok] at hrun
  obtain ⟨db₂, hreserved, ⟨db₃, _⟩, h₃, db₄, h₄, db₅, h₅, ⟨db₆, _⟩, h₆, ⟨db₇, _⟩, h₇, hend⟩ :=
    hrun
  have hother := @chooses _ db₂ (congrArg Except.toOption hreserved) (by decide +kernel)
    otherSelection _ rfl rfl rfl
  simp only [reserved, bind_eq_ok, pure_eq_ok] at hreserved
  obtain ⟨db₁, hwaiting, ⟨_, _⟩, h₂, rfl⟩ := hreserved
  have hfirst := @chooses _ db₁ (congrArg Except.toOption hwaiting) (by decide +kernel) selection _
    rfl rfl rfl
  simp only [waiting, bind_eq_ok, pure_eq_ok] at hwaiting
  obtain ⟨db₀, hqueued, ⟨_, _⟩, h₁, rfl⟩ := hwaiting
  have hwaited : Sys.Reachable Sys.Whole ⟨db₀, Held.empty⟩ :=
    ⟨_, Sys.initial_migrated, LateDay.queued_leads (fun _ _ ha _ _ => LateDay.acts_whole ha)
      hqueued⟩
  have hasked := hwaited.step Sys.serves_work.1 (.work (.create h₁))
  have htwice := (hasked.step Sys.serves_work.1 (.work (.reserveNext hfirst h₂))).step
    Sys.serves_work.1 (.work (.reserveNext hother h₃))
  have hsaved := (htwice.step Sys.serves_work.1 (.work (.recordBinary h₄))).step
    Sys.serves_work.1 (.work (.recordBinary h₅))
  have hboth := (hsaved.step Sys.serves_work.1 (.work (.begin h₆))).step
    Sys.serves_work.1 (.work (.begin h₇))
  rw [show sent = ⟨db₇, Held.empty⟩ from congrArg (Sys.mk · Held.empty) hend.symm]
  exact hboth

end RecoveryDay

end TigPool
