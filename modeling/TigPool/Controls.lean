/-
# `TigPool.Controls` — what may refuse new work

The operator's pause, the spending caps and the state of the protocol fee
balance are read from the database.  The observer that compares recorded funds
with the chain and the pilot policy are consulted and can only refuse; what they
answer is an argument, `Surroundings`.
-/
import TigPool.Members
import Mathlib.Data.List.MinMax

namespace TigPool

open Basis

/-- What the custody observer and the pilot policy answer in a transaction, and the
clock of the host it runs on. -/
structure Surroundings where
  custodyInitialized : Bool
  custodyReady : Bool
  /-- `pilot.check`, or `pilot.prohibit_topup` for a top-up. -/
  pilot : Result Unit
  hostClock : Time

/-! ## Spending caps -/

namespace Spending

/-- `ORDER BY created_at DESC, id DESC`. -/
def later (a b : Uuid × SpendingCap) : Bool :=
  b.2.createdAt < a.2.createdAt ∨ (b.2.createdAt = a.2.createdAt ∧ b.1 < a.1)

/-- The cap in force. -/
def current (db : Db) : Option SpendingCap :=
  ((db.work.spendingCaps.entries.map fun e => (e.1, e.2)).foldl
    (fun best e => if best.all (later e ·) then some e else best) none).map (·.2)

/-- Fee ceilings of reservations that were sent inside the window, or are pending
and were made inside it. -/
def committedFees (db : Db) (cap : SpendingCap) (exclude : Option Uuid) : ℕ :=
  let since := db.clock - seconds cap.windowSeconds
  db.funds.reservations.total fun identity r =>
    if some identity ≠ exclude ∧
        ((db.work.reservationEvents.lookup (identity, .potentiallySent)).any
            (fun e => since < e.createdAt ∧ e.createdAt ≤ db.clock) ∨
          (r.state = .reserved ∧ since < r.createdAt ∧ r.createdAt ≤ db.clock))
    then r.feeLimit else 0

/-- Gas ceilings of custody sends inside the window. -/
def committedGas (db : Db) (cap : SpendingCap) : ℕ :=
  let since := db.clock - seconds cap.windowSeconds
  (db.funds.withdrawalAttempts.total fun _ a =>
      if since < a.sentAt ∧ a.sentAt ≤ db.clock then a.feeLimit else 0)
    + db.funds.protocolTopups.total fun _ t =>
        if since < t.sentAt ∧ t.sentAt ≤ db.clock then t.feeLimit else 0

def checkFee (db : Db) (feeLimit : ℕ) (reservationId : Option Uuid := none) : Result Unit := do
  let cap ← fetch (current db)
    (.conflict "no spending cap is recorded; the pool commits no submission fees without one")
  require (feeLimit ≤ cap.tigFeeAttemptUnits)
    (.conflict "submission fee ceiling exceeds the per-attempt spending cap")
  require (committedFees db cap reservationId + feeLimit ≤ cap.tigFeeWindowUnits)
    (.conflict "protocol fee spending cap for the current window is reached")

/-- The cap is read before the fence of custody sends is taken. -/
def checkGas (db : Db) (feeLimit : ℕ) (cap : Option SpendingCap) : Result Unit := do
  let cap ← fetch cap
    (.conflict "no spending cap is recorded; the pool reserves no custody gas without one")
  require (feeLimit ≤ cap.nativeFeeAttemptUnits)
    (.conflict "gas ceiling exceeds the per-send spending cap")
  require (committedGas db cap + feeLimit ≤ cap.nativeFeeWindowUnits)
    (.conflict "custody gas spending cap for the current window is reached")

def blocked (db : Db) : Option String :=
  match current db with
  | none => some "spending-cap-unset"
  | some cap =>
      if cap.tigFeeWindowUnits ≤ committedFees db cap none then some "spending-cap" else none

end Spending

/-! ## The protocol fee balance -/

namespace Funding

/-- What the pool has at TIG to pay fees with. -/
def balance (db : Db) : ℤ :=
  db.funds.ledger.backing .TIG .protocol

/-- `ORDER BY checked_at DESC,created_at DESC,id DESC`. -/
def later (a b : String × FundingCapture) : Bool :=
  b.2.checkedAt < a.2.checkedAt ∨ (b.2.checkedAt = a.2.checkedAt ∧
    (b.2.createdAt < a.2.createdAt ∨ (b.2.createdAt = a.2.createdAt ∧ b.1 < a.1)))

/-- The latest funding capture for a player. -/
def latest (db : Db) (playerId : Address) : Option (String × FundingCapture) :=
  ((db.funds.fundingCaptures.entries.map fun e => (e.1, e.2)).filter fun e =>
    e.2.playerId = playerId).foldl
      (fun best e => if best.all (later e ·) then some e else best) none

/-- Complete, and observed within the last two minutes. -/
def fresh (db : Db) (capture : FundingCapture) : Bool :=
  let age := db.clock - capture.checkedAt
  capture.snapshot.isSome ∧ -seconds 5 ≤ age ∧ age ≤ seconds 120

def ready (db : Db) (playerId : Address) : Bool :=
  db.funds.fundingAlerts = [] ∧
    (latest db playerId).any fun c => fresh db c.2 ∧ c.2.snapshot.map (·.available) = some (balance db)

end Funding

/-! ## The pause -/

def paused (db : Db) : Bool :=
  db.work.newWorkPaused

/-- Why no new work may be taken on, if there is a reason. -/
def blocked (db : Db) (around : Surroundings) : Option String :=
  if paused db then some "operator-pause"
  else match Spending.blocked db with
    | some reason => some reason
    | none =>
        if around.custodyInitialized ∧ ¬ around.custodyReady then some "custody-reconciliation"
        else if db.funds.protocolIdentity.any fun playerId => ¬ Funding.ready db playerId then
          some "protocol-fee-reconciliation"
        else none

/-- The new value takes effect; the log of changes is not kept here. -/
def setPause (db : Db) (value : Bool) : Db :=
  { db with work := { db.work with newWorkPaused := value } }

/-- The limits of a cap, as an operator gives them. -/
structure CapLimits where
  tigFeeWindowUnits : ℤ
  tigFeeAttemptUnits : ℤ
  nativeFeeWindowUnits : ℤ
  nativeFeeAttemptUnits : ℤ

/-- A limit that a cap can have. -/
def capLimit (value : ℤ) : Result ℕ := do
  let value ← units value
  require (value < 2 ^ 128) (.funds "spending cap limits are out of range")
  return value

/-- Record a cap; the newest is in force. -/
def setCap (db : Db) (windowSeconds : ℤ) (limits : CapLimits) (actor reason eventKey : String)
    (identity : Uuid) : Result Db := do
  let tigFeeWindowUnits ← capLimit limits.tigFeeWindowUnits
  let tigFeeAttemptUnits ← capLimit limits.tigFeeAttemptUnits
  let nativeFeeWindowUnits ← capLimit limits.nativeFeeWindowUnits
  let nativeFeeAttemptUnits ← capLimit limits.nativeFeeAttemptUnits
  require (3600 ≤ windowSeconds ∧ windowSeconds ≤ 31622400)
    (.funds "spending cap window must be between one hour and one year, in seconds")
  require (1 ≤ actor.length ∧ actor.length ≤ 128 ∧ 1 ≤ reason.length ∧ reason.length ≤ 1000 ∧
      1 ≤ eventKey.length ∧ eventKey.length ≤ 128)
    (.funds "spending cap changes require an operator, reason and event key")
  require (tigFeeAttemptUnits ≤ tigFeeWindowUnits ∧ nativeFeeAttemptUnits ≤ nativeFeeWindowUnits)
    (.funds "per-attempt limits cannot exceed their window limits")
  let cap : SpendingCap :=
    { eventKey, windowSeconds := windowSeconds.toNat, tigFeeWindowUnits, tigFeeAttemptUnits,
      nativeFeeWindowUnits, nativeFeeAttemptUnits, actor, reason, createdAt := db.clock }
  match db.work.spendingCaps.find fun _ row => row.eventKey = eventKey with
  | some (_, previous) =>
      require ({ cap with createdAt := previous.createdAt } = previous)
        (.conflict "spending cap event key was reused with different inputs")
      return db
  | none =>
      require (identity ∉ db.work.spendingCaps) (.integrity "spending_caps_pkey")
      return { db with work := { db.work with
        spendingCaps := AList.insert identity cap db.work.spendingCaps } }

/-- A cap is recorded under a fresh identity, or it is there already. -/
theorem setCap_cases {db db' : Db} {windowSeconds : ℤ} {limits : CapLimits}
    {actor reason eventKey : String} {identity : Uuid}
    (h : setCap db windowSeconds limits actor reason eventKey identity = .ok db') :
    db' = db ∨ ∃ cap : SpendingCap, cap.createdAt = db.clock ∧ identity ∉ db.work.spendingCaps ∧
      db' = { db with work := { db.work with
        spendingCaps := AList.insert identity cap db.work.spendingCaps } } := by
  simp only [setCap, bind_eq_ok, require_eq_ok, exists_const] at h
  obtain ⟨_, -, _, -, _, -, _, -, -, -, -, h⟩ := h
  split at h <;> simp only [bind_eq_ok, require_eq_ok, exists_const, pure_eq_ok] at h
  · exact .inl h.2.symm
  · obtain ⟨hfresh, rfl⟩ := h
    exact .inr ⟨_, rfl, hfresh, rfl⟩

end TigPool
