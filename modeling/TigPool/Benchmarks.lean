/-
# `TigPool.Benchmarks` — collateral, slots and recoverable benchmark handover

The life of a reservation, as its state column tells it:

    reserved ──mark_submitting──▶ uncertain ──accept──▶ accepted ──record_outcome──▶ active,
       │                              │                    │               verification_failed, expired
       └─release_unstarted─▶ cancelled└─▶ rejected         └─release_unhanded─▶ cancelled

No function here calls TIG.  An uncertain operation is only ever resolved with
protocol evidence, never because a lease ran out.
-/
import TigPool.Controls

namespace TigPool

open Basis

/-- The account that holds the collateral of a reservation. -/
abbrev held (reservationId : Uuid) : AccountId := .collateral reservationId

/-- The account that holds the operator's commitment to its protocol fee. -/
abbrev committedFee (reservationId : Uuid) : AccountId := .commitment reservationId

abbrev available (memberId : Uuid) : AccountId := .available memberId

def initializeAccounts (db : Db) : Result Db := do
  let ledger ← db.funds.ledger.account (.operator .custody .TIG) .operator .TIG
  let ledger ← ledger.account (.external .custody .TIG) .external .TIG
  let ledger ← ledger.account (.operator .custody .NATIVE) .operator .NATIVE
  let ledger ← ledger.account (.external .custody .NATIVE) .external .NATIVE
  let ledger ← ledger.account operatorFees .operator .TIG .protocol
  let ledger ← ledger.account (.external .protocol .TIG) .external .TIG .protocol
  let ledger ← ledger.account .unattributed .unattributed
  return db.withLedger ledger

/-- Remember one step of a reservation; repeating it needs the same evidence. -/
def event (db : Db) (identity : Uuid) (kind : ReservationEventKind) (details : Json) :
    Result Db :=
  match db.work.reservationEvents.lookup (identity, kind) with
  | some existing => do
      require (existing.details = details)
        (.conflict "reservation event was repeated with different evidence")
      return db
  | none =>
      let row : ReservationEvent := { details, createdAt := db.clock }
      .ok { db with work := { db.work with
        reservationEvents := AList.insert (identity, kind) row db.work.reservationEvents } }

def lockedReservation (db : Db) (identity : Uuid) : Result Reservation :=
  fetch (db.funds.reservations.lookup identity) (.funds "unknown reservation")

/-- `[track["num_bundles"] for track in payload["track_settings"].values()]` -/
def proposedBundleCounts (payload : Json) : Option (List Json) :=
  match payload.get? "track_settings" with
  | some (.obj tracks) => tracks.mapM fun track => track.2.get? "num_bundles"
  | _ => none

def reserve (db : Db) (memberId : Uuid) (requestKey : String) (creationRound : ℤ)
    (resource : Resource) (selection payload : Json) (feeLimit : ℤ) (offerExpiresAt : Time)
    (around : Surroundings) (identity : Uuid) : Result (Db × Uuid) := do
  require (requestKey ≠ "" ∧ requestKey.length ≤ 128)
    (.funds "request requires a key and exactly one CPU or GPU offer")
  let round ← units creationRound true
  let fee ← units feeLimit
  let counts ← fetch (proposedBundleCounts payload)
    (.funds "precommit requires all proposed track settings")
  let requestHash : Json := .obj [("fee_limit", .int fee),
    ("offer_expires_at", .int offerExpiresAt), ("payload", payload),
    ("resource", .str (match resource with | .CPU => "CPU" | .GPU => "GPU")),
    ("round", .int round), ("selection", selection)]
  let member ← memberLock db memberId
  match db.funds.reservations.find fun _ r => r.memberId = memberId ∧ r.requestKey = requestKey with
  | some (existing, row) =>
      require (row.requestHash = requestHash)
        (.conflict "work request key was reused with different inputs")
      return (db, existing)
  | none =>
      let reason := blocked db around
      require (reason = none)
        (.conflict ("new benchmark reservations are paused or blocked: " ++ reason.getD ""))
      require (db.clock < offerExpiresAt) (.conflict "compute offer has expired")
      require (db.funds.reservations.count (fun _ r => r.memberId = memberId ∧ r.slotHeld) < 2)
        (.conflict "member already occupies both benchmark slots")
      let (base, amount) ← collateral counts member.multiplier
      let _ ← around.pilot
      let _ ← Spending.checkFee db fee
      let ledger ← db.funds.ledger.account (held identity) .collateral
      let ledger ← ledger.account (committedFee identity) .operatorCommitment .TIG .protocol
      let ledger ← if amount ≠ 0 ∨ fee ≠ 0 then
          ledger.post (.reserve identity) "benchmark_reservation"
            [(available memberId, -amount), (held identity, amount),
             (operatorFees, -fee), (committedFee identity, fee)]
            (.obj [("member_id", .str memberId),
              ("multiplier_revision", .int member.multiplierRevision)])
        else .ok ledger
      require (identity ∉ db.funds.reservations) (.integrity "reservations_pkey")
      let row : Reservation :=
        { memberId, requestKey, requestHash, creationRound := round, resource,
          baseAmount := base, multiplier := member.multiplier,
          multiplierRevision := member.multiplierRevision, amount, selection, payload,
          payloadText := some payload, offerExpiresAt, feeLimit := fee, createdAt := db.clock }
      let db ← event ((db.withLedger ledger).putReservation identity row) identity .reserved
        (.obj [("request_hash", requestHash)])
      return (db, identity)

/-- Commit uncertainty before an external call; this is not a retry lease. -/
def markSubmitting (db : Db) (identity : Uuid) (around : Surroundings) : Result (Db × Json) := do
  let row ← lockedReservation db identity
  require (row.state = .reserved)
    (.conflict "precommit may already have been sent; reconcile before proceeding")
  require (db.clock < row.offerExpiresAt) (.conflict "offer expired before submission")
  let _ ← memberLock db row.memberId
  let _ ← around.pilot
  let _ ← Spending.checkFee db row.feeLimit (some identity)
  let payload := row.payloadText.getD row.payload
  let db ← event (db.putReservation identity { row with state := .uncertain }) identity
    .potentiallySent (.obj [("payload_hash", payload)])
  return (db, payload)

/-- Charge the actual fee to the commitment and return the rest. -/
def fees (db : Db) (identity : Uuid) (row : Reservation) (actual : ℤ) : Result (Db × ℕ) := do
  let actual ← units actual
  require (actual ≤ row.feeLimit)
    (.conflict "actual protocol fee exceeds its committed budget; reconcile explicitly")
  let ledger ← if row.feeLimit ≠ 0 then
      db.funds.ledger.post (.fee identity) "operator_submission_cost"
        [(committedFee identity, -row.feeLimit), (operatorFees, row.feeLimit - actual),
         (.external .protocol .TIG, actual)] (.obj [("actual", .int actual)])
    else .ok db.funds.ledger
  return (db.withLedger ledger, actual)

def Json.isNonemptyObject : Json → Bool
  | .obj members => members ≠ []
  | _ => false

def accept (db : Db) (identity : Uuid) (benchmarkId : String) (assignment : Json)
    (actualFee : ℤ) (evidence : Json) : Result (Db × Uuid) := do
  require (benchmarkId ≠ "" ∧ assignment.isNonemptyObject ∧ evidence.truthy)
    (.funds "acceptance requires benchmark identity, complete assignment and evidence")
  let row ← lockedReservation db identity
  match row.benchmarkId with
  | some recorded =>
      require (recorded = benchmarkId ∧ row.assignmentDigest = some assignment ∧
          row.feeActual.map Int.ofNat = some actualFee)
        (.conflict "benchmark acceptance differs from recorded assignment")
      return (db, identity)
  | none =>
      require (row.state = .uncertain)
        (.conflict "acceptance requires a potentially sent submission")
      let (db, actual) ← fees db identity row actualFee
      require (db.funds.reservations.any (fun _ r => r.benchmarkId = some benchmarkId) = false)
        (.integrity "reservations_benchmark_id_key")
      let db := db.putReservation identity
        { row with feeActual := some actual, state := .accepted, benchmarkId := some benchmarkId,
                   assignment := some assignment, assignmentDigest := some assignment }
      let db ← event db identity .accepted (.obj [("benchmark_id", .str benchmarkId),
        ("digest", assignment), ("evidence", evidence)])
      return (db, identity)

/-- Cancel work that was never sent, or reject work that TIG definitively refused. -/
def releaseUnstarted (db : Db) (identity : Uuid) (rejected : Bool) (actualFee : ℤ)
    (evidence : Json) : Result (Db × Uuid) := do
  require (evidence.truthy = true) (.funds "cancellation/rejection requires durable evidence")
  let state : ReservationState := if rejected then .rejected else .cancelled
  let row ← lockedReservation db identity
  if row.state = state then
    require (row.feeActual.map Int.ofNat = some actualFee)
      (.conflict "repeated release has a different actual fee")
    return (db, identity)
  else
    require (row.state = if rejected then .uncertain else .reserved)
      (.conflict "only definitive rejection or a proven-unsent intent can release immediately")
    require (rejected = true ∨ actualFee = 0)
      (.conflict "an unsent cancellation cannot have a submission charge")
    let (db, actual) ← fees db identity row actualFee
    let ledger ← if row.amount ≠ 0 then
        db.funds.ledger.post (.collateralReturn identity) "collateral_return"
          [(held identity, -row.amount), (available row.memberId, row.amount)]
      else .ok db.funds.ledger
    let db := (db.withLedger ledger).putReservation identity
      { row with feeActual := some actual, state, slotHeld := false,
                 collateralOutcome := some .returned }
    let db ← event db identity (if rejected then .rejected else .cancelled) evidence
    return (db, identity)

/-- Return member collateral when an accepted assignment was never handed over. -/
def releaseUnhanded (db : Db) (identity : Uuid) (actor reason eventKey : String) :
    Result (Db × Uuid) := do
  require (actor ≠ "" ∧ reason ≠ "" ∧ eventKey ≠ "")
    (.funds "unhanded collateral return requires an operator, reason and event key")
  let row ← lockedReservation db identity
  let evidence : Json := .obj [("actor", .str actor),
    ("benchmark_id", row.benchmarkId.elim .null .str), ("event_key", .str eventKey),
    ("offer_expires_at", .int row.offerExpiresAt), ("reason", .str reason)]
  if row.state = .cancelled ∧ row.collateralOutcome = some .returned then
    let db ← event db identity .unhandedReturned evidence
    return (db, identity)
  else
    require (row.state = .accepted ∧ row.benchmarkId.isSome ∧ row.slotHeld)
      (.conflict "only an accepted, collateral-backed assignment can be returned")
    require (row.handedOverAt = none)
      (.conflict "member confirmed handover; collateral cannot be returned as unhanded")
    require (paused db = true) (.conflict "pause new work before returning unhanded collateral")
    require (row.offerExpiresAt ≤ db.clock) (.conflict "member offer has not expired")
    require (db.work.benchmarkPayloads.any (fun key _ => some key.1 = row.benchmarkId) = false ∧
        db.work.benchmarkProgress.any (fun key _ => some key = row.benchmarkId) = false)
      (.conflict "benchmark already has member results or progress evidence")
    let ledger ← if row.amount ≠ 0 then
        db.funds.ledger.post (.unhandedReturn identity) "collateral_return"
          [(held identity, -row.amount), (available row.memberId, row.amount)] evidence
      else .ok db.funds.ledger
    let db := (db.withLedger ledger).putReservation identity
      { row with state := .cancelled, slotHeld := false, collateralOutcome := some .returned }
    let db ← event db identity .unhandedReturned evidence
    return (db, identity)

/-- The member confirms that the assignment has arrived. -/
def acknowledge (db : Db) (identity memberId : Uuid) (digest : Json) : Result (Db × Uuid) := do
  let row ← lockedReservation db identity
  require (row.memberId = memberId ∧ row.assignmentDigest = some digest)
    (.conflict "assignment owner or digest does not match")
  if row.handedOverAt.isSome then
    -- A lost response never erases an already committed handover.
    return (db, identity)
  else
    require (row.state = .accepted) (.conflict "assignment is not available for first handover")
    let db := db.putReservation identity { row with handedOverAt := some db.clock }
    let db ← event db identity .handedOver
      (.obj [("digest", digest), ("member_id", .str memberId)])
    return (db, identity)

/-- The three states that end a benchmark's work. -/
inductive DefinitiveOutcome where
  | active
  | verificationFailed
  | expired
deriving DecidableEq

def DefinitiveOutcome.state : DefinitiveOutcome → ReservationState
  | .active => .active
  | .verificationFailed => .verificationFailed
  | .expired => .expired

def DefinitiveOutcome.eventKind : DefinitiveOutcome → ReservationEventKind
  | .active => .active
  | .verificationFailed => .verificationFailed
  | .expired => .expired

def recordOutcome (db : Db) (identity : Uuid) (outcome : DefinitiveOutcome) (height : ℤ)
    (evidence : Json) : Result (Db × Uuid) := do
  require (evidence.truthy = true)
    (.funds "a definitive protocol outcome and evidence are required")
  let height ← units height true
  let row ← lockedReservation db identity
  if row.state = outcome.state then
    return (db, identity)
  else
    require (row.state = .accepted) (.conflict "outcome conflicts with benchmark state")
    require (outcome = .expired ∨ row.handedOverAt.isSome)
      (.conflict "results cannot be submitted without confirmed handover")
    let db := db.putReservation identity
      { row with state := outcome.state, slotHeld := false,
                 activeAtHeight := if outcome = .active then some height else none }
    let db ← event db identity outcome.eventKind
      (.obj [("evidence", evidence), ("height", .int height)])
    return (db, identity)

end TigPool
