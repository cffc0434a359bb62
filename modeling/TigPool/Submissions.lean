/-
# `TigPool.Submissions` — durable submission fences and evidence-driven recovery

An intent leaves `ready` in the transaction that authorises its only POST, and
never comes back:

    ready ──begin──▶ uncertain ──record_response, recover_precommit, confirm_payload──▶ accepted
      │                  └──definitive_rejection, late results──▶ rejected
      └──cancel_unsent, retire_unsent_payload, unsent results──▶ cancelled

This module owns no network client and never retries an uncertain POST.  What a
coordinator does around it — read a preflight, post, hand in the response — it
may do in any order and stop at any point.
-/
import TigPool.ProofRoot
import TigPool.Wire
import TigPool.WorkRequests

namespace TigPool

open Basis

namespace Submissions

/-- A TIG benchmark identity: 32 hexadecimal digits in lower case. -/
def isIdentity (value : String) : Bool :=
  value.length = 32 ∧ value.toList.all fun c => isHexDigit c ∧ ¬ c.isUpper

/-- The intent and its reservation. -/
def locked (db : Db) (identity : Uuid) : Result (Reservation × ProtocolIntent) := do
  let intent ← fetch (db.work.protocolOutbox.lookup identity) (.funds "unknown protocol intent")
  let row ← lockedReservation db intent.reservationId
  return (row, intent)

/-! ## Algorithm archives -/

def recordBinary (db : Db) (reservationId : Uuid) (sourceUrl digest : String) : Result Db := do
  let row ← lockedReservation db reservationId
  let expected := (((row.selection.get? "binary").bind (·.get? "details")).bind
    (·.get? "download_url"))
  require (expected = some (.str sourceUrl))
    (.conflict "algorithm archive URL differs from reserved selection")
  match db.work.reservationBinaries.lookup reservationId with
  | some previous =>
      require (previous.sha256 = digest ∧ previous.sourceUrl = sourceUrl)
        (.conflict "reserved algorithm archive changed")
      return db
  | none =>
      require (row.state = .reserved)
        (.conflict "algorithm archive must be saved before precommit submission")
      let binary : ReservationBinary := { sha256 := digest, sourceUrl, direct := true }
      return { db with work := { db.work with
        reservationBinaries := AList.insert reservationId binary db.work.reservationBinaries } }

/-! ## Sending -/

/-- What a precommit can be recognised by, once TIG has accepted it. -/
def matchKey (payload : Json) : Json :=
  .obj [("compute_type", (payload.get? "compute_type").getD .null),
    ("settings", (payload.get? "settings").getD .null)]

/-- The checks that must pass before the one POST of a precommit. -/
def checkPreflight (db : Db) (row : Reservation) (intent : ProtocolIntent)
    (preflight : Preflight) : Result Unit := do
  let payload := intent.payloadText
  require (preflight.blockId = (payload.get? "settings").bind (·.get? "block_id"))
    (.conflict "current TIG block differs from immutable precommit; cancel unsent work")
  require (preflight.height = row.selection.get? "height")
    (.protocolData "complete preflight block and benchmark identities required")
  let age := db.clock - seconds preflight.observedAt
  require (0 ≤ preflight.observedAt ∧ -seconds 5 ≤ age ∧ age ≤ seconds 20)
    (.conflict "preflight is too old to authorize a first submission")
  require (preflight.seenBenchmarks.Nodup ∧ preflight.seenBenchmarks.all isIdentity)
    (.protocolData "duplicate preflight identities")
  require (intent.reservationId ∈ db.work.reservationBinaries)
    (.conflict "checked algorithm metadata is not durable")
  -- TIG exposes only the randomly chosen track.  Different full track proposals
  -- can still become indistinguishable later.
  require (db.work.protocolOutbox.any (fun _ i =>
      i.matchKey = some (matchKey payload) ∧ i.state = .uncertain) = false)
    (.conflict "indistinguishable precommit is still unresolved")

/-- Commit before the first HTTP POST; duplicate workers cannot both send. -/
def begin (db : Db) (identity : Uuid) (preflight : Option Preflight) (around : Surroundings) :
    Result (Db × ProtocolIntent) := do
  let (row, intent) ← locked db identity
  require (intent.state = .ready)
    (.conflict "intent is not unsent; reconcile instead of retrying")
  if intent.kind = .precommit then
    require (blocked db around = none)
      (.conflict "new precommit submissions are paused or awaiting custody reconciliation")
    let preflight ← fetch preflight
      (.conflict "current TIG block differs from immutable precommit; cancel unsent work")
    checkPreflight db row intent preflight
    require (db.work.protocolOutbox.any (fun _ i =>
        i.kind = .precommit ∧ i.state = .uncertain ∧ i.digest = intent.digest) = false)
      (.conflict "another submission holds this immutable protocol fence")
    let (db, _) ← markSubmitting db intent.reservationId around
    let sent : ProtocolIntent :=
      { intent with state := .uncertain, sentAt := some db.clock, preflight := some preflight,
                    matchKey := some (matchKey intent.payloadText) }
    return (db.putIntent identity sent, sent)
  else
    require (row.state = .accepted ∧ row.handedOverAt.isSome)
      (.conflict "benchmark is not available for a first result/proof submission")
    require (intent.kind = .results ∨ db.work.protocolOutbox.any (fun _ i =>
        i.reservationId = intent.reservationId ∧ i.kind = .results ∧ i.state = .accepted) = true)
      (.conflict "TIG has not accepted this benchmark's results")
    let sent : ProtocolIntent := { intent with state := .uncertain, sentAt := some db.clock }
    return (db.putIntent identity sent, sent)

def cancelUnsent (db : Db) (identity : Uuid) (evidence : Json) : Result Db := do
  require (evidence.truthy = true) (.funds "unsent cancellation requires a reason")
  let (_, intent) ← locked db identity
  if intent.state = .cancelled then
    return db
  else
    require (intent.state = .ready ∧ intent.kind = .precommit)
      (.conflict "only an unsent precommit can cancel and return collateral")
    let (db, _) ← releaseUnstarted db intent.reservationId false 0 evidence
    return db.putIntent identity { intent with state := .cancelled, evidence := some evidence }

/-! ## Answers -/

/-- The durable record of a positive precommit identity. -/
def receipt (db : Db) (reservationId : Uuid) (benchmarkId : String) (evidence : Json) :
    Result Db := do
  require (isIdentity benchmarkId = true) (.protocolData "invalid TIG benchmark ID")
  match db.work.precommitReceipts.lookup reservationId with
  | some existing =>
      require (existing.benchmarkId = benchmarkId)
        (.conflict "precommit response contradicts its recorded identity")
      return db
  | none =>
      require (db.funds.reservations.any (fun id r =>
          r.benchmarkId = some benchmarkId ∧ id ≠ reservationId) = false)
        (.conflict "benchmark already belongs to another reservation")
      require (db.work.precommitReceipts.any (fun _ r => r.benchmarkId = benchmarkId) = false)
        (.integrity "precommit_receipts_benchmark_id_key")
      return { db with work := { db.work with
        precommitReceipts :=
          AList.insert reservationId ⟨benchmarkId, evidence⟩ db.work.precommitReceipts } }

/-- What a response says about a submission of this kind. -/
inductive Answer where
  | precommit (benchmarkId : String)
  | payload
  | unknown
deriving DecidableEq

/-- The identity that a value from outside is, if it is one. -/
def identityIn : Option Wire → Option String
  | some (.str codePoints) => (Wire.text codePoints).filter isIdentity
  | _ => none

def readAnswer (kind : IntentKind) (response : Wire) : Answer :=
  match response.get? "body" with
  | some (.obj members) =>
      let payload := Wire.obj members
      if (response.get? "status").any (·.isInt 200) then
        match kind with
        | .precommit => match identityIn (payload.get? "benchmark_id") with
            | some benchmarkId => .precommit benchmarkId
            | none => .unknown
        | .results => match payload.get? "ok" with
            | some (.bool true) => .payload
            | _ => .unknown
        | .proofs => if (payload.get? "verified").isSome then .payload else .unknown
      else .unknown
  | _ => .unknown

/-- Persist raw safe response metadata; unknown and error responses stay uncertain. -/
def recordResponse (db : Db) (identity : Uuid) (response : Wire) (responseId : Uuid)
    (limits : Wire → Bool) : Result (Db × Bool) := do
  require (response.isObject = true) (.funds "submission response evidence must be an object")
  let (_, intent) ← locked db identity
  require (intent.state = .uncertain ∨ intent.state = .accepted)
    (.conflict "no potentially sent operation matches this response")
  let stored ← fetch (response.column limits) (.integrity "submission_responses_response")
  require (responseId ∉ db.work.submissionResponses) (.integrity "submission_responses_pkey")
  let row : SubmissionResponse :=
    { outboxId := identity, response := stored, createdAt := db.clock }
  let db := { db with work := { db.work with
    submissionResponses := AList.insert responseId row db.work.submissionResponses } }
  let evidence : Json := .obj [("response_id", .str responseId)]
  let answer := readAnswer intent.kind response
  let db ← match answer with
    | .precommit benchmarkId => receipt db intent.reservationId benchmarkId evidence
    | _ => .ok db
  if answer ≠ .unknown ∧ intent.state = .uncertain then
    return (db.putIntent identity { intent with state := .accepted, evidence := some evidence }, true)
  else
    return (db, answer ≠ .unknown)

/-- Trusted adapter only: an HTTP timeout, absence or generic refusal is insufficient. -/
def definitiveRejection (db : Db) (identity : Uuid) (evidence : Json) (actualFee : ℤ) :
    Result Db := do
  require (evidence.get? "definitive_no_precommit" = some (.bool true))
    (.funds "explicit evidence of definitive rejection is required")
  let (_, intent) ← locked db identity
  require (intent.kind = .precommit ∧ intent.state = .uncertain)
    (.conflict "rejection conflicts with the stored submission")
  require (intent.reservationId ∉ db.work.precommitReceipts)
    (.conflict "positive acceptance cannot be replaced by rejection")
  let (db, _) ← releaseUnstarted db intent.reservationId true actualFee evidence
  return db.putIntent identity { intent with state := .rejected, evidence := some evidence }

/-! ## Recovery -/

/-- `a == b`, which is false where one of them is missing. -/
def equal (a b : Option Json) : Bool :=
  match a, b with
  | some a, some b => a.equals b
  | _, _ => false

/-- Could TIG's precommit be the one the payload proposed?  TIG chooses the track. -/
def matchesPayload (payload precommit : Json) : Bool :=
  let settings := precommit.get? "settings"
  let details := precommit.get? "details"
  match settings.bind (·.get? "track_id"), payload.get? "settings" with
  | some (.str trackId), some reserved =>
      match (payload.get? "track_settings").bind (·.get? trackId) with
      | some track =>
          equal settings (some (reserved.set "track_id" (.str trackId))) ∧
            equal (details.bind (·.get? "compute_type")) (payload.get? "compute_type") ∧
            ["num_bundles", "fuel_budget", "hyperparameters"].all fun key =>
              equal (details.bind (·.get? key)) (track.get? key)
      | none => false
  | _, _ => false

def benchmarkIdOf (precommit : Json) : Option String :=
  match precommit.get? "benchmark_id" with
  | some (.str benchmarkId) => some benchmarkId
  | _ => none

/-- The first half of `_identity`: a value from outside has to be a text. -/
def identityText : Json → Result String
  | .str benchmarkId => .ok benchmarkId
  | _ => .error (.protocolData "invalid TIG benchmark ID")

/-- Is the benchmark known already: before the submission, or as that of a reservation? -/
def excluded (db : Db) (preflight : Preflight) (benchmarkId : Json) : Bool :=
  (preflight.seenBenchmarks.any fun seen => benchmarkId = .str seen) ∨
    (db.work.precommitReceipts.any fun _ r => benchmarkId = .str r.benchmarkId) ∨
    db.funds.reservations.any fun _ r => some benchmarkId = r.benchmarkId.map .str

/-- The records of a feed that the intent may have become. -/
def recoverable (db : Db) (preflight : Preflight) (payload precommit : Json) : Bool :=
  excluded db preflight ((precommit.get? "benchmark_id").getD .null) = false ∧
    matchesPayload payload precommit

/-- A list or an object cannot be looked up in a set. -/
def unhashable : Option Json → Bool
  | some (.arr _) | some (.obj _) => true
  | _ => false

/-- Recover exactly one new match; zero or multiple matches remain unresolved. -/
def recoverPrecommit (db : Db) (identity : Uuid) (precommits : List Json) (evidence : Json) :
    Result (Db × Option String) := do
  require (evidence.truthy = true)
    (.protocolData "precommit reconciliation requires observed protocol records")
  let (_, intent) ← locked db identity
  require (intent.kind = .precommit ∧ intent.state = .uncertain)
    (.conflict "precommit is not awaiting identity reconciliation")
  let preflight ← fetch intent.preflight
    (.conflict "precommit is not awaiting identity reconciliation")
  require ((precommits.any fun value => unhashable (value.get? "benchmark_id")) = false)
    (.malformed "unhashable benchmark_id")
  let found := precommits.filter (recoverable db preflight intent.payloadText)
  require (∀ value ∈ found, (value.get? "benchmark_id").isSome = true)
    (.malformed "precommit has no benchmark_id")
  match (found.filterMap (·.get? "benchmark_id")).eraseDupsBy Json.equals with
  | [candidate] =>
      let benchmarkId ← identityText candidate
      let db ← receipt db intent.reservationId benchmarkId evidence
      return (db.putIntent identity { intent with state := .accepted, evidence := some evidence },
        some benchmarkId)
  | _ => return (db, none)

/-- `_precise`: exact nonnegative units, written in decimal digits. -/
def precise (value : Option Json) : Result ℕ :=
  match value with
  | some (.str text) => do
      require (text ≠ "" ∧ text.toList.all (·.isDigit))
        (.protocolData "expected exact nonnegative units")
      return text.toList.foldl (fun n c => 10 * n + (c.toNat - '0'.toNat)) 0
  | _ => .error (.protocolData "expected exact nonnegative units")

/-- The part of the saved block that a precommit refers to. -/
structure Snapshot where
  height : ℕ
  challenges : Json
  algorithms : Json

/-- The confirmed details of a precommit, checked against the reserved choice;
the result is its identity and the fee that was charged. -/
def checkPrecommit (payload precommit : Json) (snapshot : Snapshot) : Result (String × ℕ) := do
  require (matchesPayload payload precommit = true)
    (.protocolData "accepted benchmark does not match the reserved precommit")
  let benchmarkId ← fetch (benchmarkIdOf precommit) (.protocolData "invalid TIG benchmark ID")
  require (isIdentity benchmarkId = true) (.protocolData "invalid TIG benchmark ID")
  let details := precommit.get? "details"
  let confirmed ← Protocol.integer ((precommit.get? "state").bind (·.get? "block_confirmed"))
    "precommit confirmation" snapshot.height
  require (snapshot.height < confirmed)
    (.protocolData "precommit confirmation must follow the referenced block")
  require (details.bind (·.get? "block_started") = some (.int snapshot.height))
    (.protocolData "accepted creation height differs from the collateral reservation")
  let challenge ← fetch (((payload.get? "settings").bind (·.get? "challenge_id")).bind fun id =>
      match id with
      | .str id => (snapshot.challenges.get? id).bind (·.get? "config")
      | _ => none)
    (.protocolData "accepted precommit metadata is incomplete")
  let track ← fetch (((precommit.get? "settings").bind (·.get? "track_id")).bind fun id =>
      match id with
      | .str id => (challenge.get? "active_tracks").bind (·.get? id)
      | _ => none)
    (.protocolData "accepted precommit metadata is incomplete")
  let nonces ← Protocol.integer (details.bind (·.get? "num_nonces")) "num_nonces"
  let bundles ← Protocol.integer (details.bind (·.get? "num_bundles")) "num_bundles"
  let perBundle ← Protocol.integer (track.get? "num_nonces_per_bundle") "num_nonces_per_bundle"
  require (nonces = bundles * perBundle)
    (.protocolData "accepted nonce count differs from the selected track")
  require ((details.bind (·.get? "rand_hash")).any fun h => match h with
      | .str h => isIdentity h
      | _ => false)
    (.protocolData "accepted random seed is invalid")
  let fee ← precise (details.bind (·.get? "fee_paid"))
  let base ← precise (challenge.get? "base_fee")
  let each ← precise (challenge.get? "per_nonce_fee")
  require (fee = base + each * bundles)
    (.protocolData "charged fee differs from the captured protocol configuration")
  return (benchmarkId, fee)

/-- The assignment a member receives. -/
def assignmentOf (payload precommit : Json) (snapshot : Snapshot) (benchmarkId : String)
    (archive : ReservationBinary) (artifactOrigin : String) : Json :=
  let details := precommit.get? "details"
  let detail (key : String) : String × Json := (key, (details.bind (·.get? key)).getD .null)
  let algorithm := ((payload.get? "settings").bind (·.get? "algorithm_id")).bind fun id =>
    match id with
    | .str id => ((snapshot.algorithms.get? id).bind (·.get? "details")).bind (·.get? "name")
    | _ => none
  let url := if archive.direct ∨ artifactOrigin = "" then archive.sourceUrl
    else artifactOrigin ++ "/api/v2/artifacts/" ++ archive.sha256
  .obj [("algorithm_name", algorithm.getD .null), ("api_version", .str "2.0"),
    ("benchmark_id", .str benchmarkId), ("binary_sha256", .str archive.sha256),
    ("binary_url", .str url), detail "compute_type", detail "fuel_budget",
    detail "hyperparameters", detail "num_bundles", detail "num_nonces", detail "rand_hash",
    ("settings", (precommit.get? "settings").getD .null)]

/-- Publish confirmed TIG details only after validating the immutable choice.
The payload is read before the transaction begins; it never changes. -/
def publishAssignment (db : Db) (reservationId : Uuid) (precommit : Json) (snapshot : Snapshot)
    (evidence : Json) (artifactOrigin : String) : Result (Db × Uuid) := do
  let row ← fetch (db.funds.reservations.lookup reservationId)
    (.funds "unknown serialized reservation")
  let payload ← fetch row.payloadText (.funds "unknown serialized reservation")
  let (benchmarkId, fee) ← checkPrecommit payload precommit snapshot
  let receipt ← fetch (db.work.precommitReceipts.lookup reservationId)
    (.conflict "confirmed metadata has no matching durable acceptance receipt")
  require (receipt.benchmarkId = benchmarkId)
    (.conflict "confirmed metadata has no matching durable acceptance receipt")
  let archive ← fetch (db.work.reservationBinaries.lookup reservationId)
    (.conflict "reserved binary archive is missing")
  accept db reservationId benchmarkId
    (assignmentOf payload precommit snapshot benchmarkId archive artifactOrigin) fee evidence

/-! ## Payloads -/

/-- The intent of a reservation for one kind of submission. -/
def intentOf (db : Db) (reservationId : Uuid) (kind : IntentKind) :
    Option (Uuid × ProtocolIntent) :=
  db.work.protocolOutbox.find fun _ i => i.reservationId = reservationId ∧ i.kind = kind

/-- A confirmed owned benchmark or proof resolves an uncertain payload POST. -/
def confirmPayload (db : Db) (reservationId : Uuid) (kind : IntentKind) (evidence : Json) :
    Result Db := do
  require (kind ≠ .precommit ∧ evidence.truthy) (.funds "confirmed result/proof evidence required")
  let _ ← lockedReservation db reservationId
  let (identity, intent) ← fetch (intentOf db reservationId kind)
    (.conflict "confirmed protocol payload has no matching potentially-sent intent")
  require (intent.state = .uncertain ∨ intent.state = .accepted)
    (.conflict "confirmed protocol payload has no matching potentially-sent intent")
  if intent.state = .uncertain then
    return db.putIntent identity { intent with state := .accepted, evidence := some evidence }
  else
    return db

/-- A payload that was never sent is not sent after a definitive outcome. -/
def retireUnsentPayload (db : Db) (identity : Uuid) : Result (Db × Bool) := do
  let (row, intent) ← locked db identity
  if intent.kind = .precommit ∨ intent.state ≠ .ready ∨
      ¬ (row.state = .active ∨ row.state = .verificationFailed ∨ row.state = .expired) then
    return (db, false)
  else
    let evidence : Json := .obj [("reason", .str "definitive-benchmark-outcome")]
    return (db.putIntent identity { intent with state := .cancelled, evidence := some evidence },
      true)

end Submissions

/-! ## What members upload -/

namespace MemberProtocol

def owned (db : Db) (benchmarkId : String) (memberId : Uuid) : Result (Uuid × Reservation) := do
  let (identity, row) ← fetch (db.funds.reservations.find fun _ r =>
    r.benchmarkId = some benchmarkId) (.funds "unknown member benchmark")
  require (row.memberId = memberId) (.funds "unknown member benchmark")
  return (identity, row)

/-- `_store`: keep an upload and queue its submission, once. -/
def store (db : Db) (identity : Uuid) (row : Reservation) (benchmarkId : String)
    (kind : IntentKind) (payload : Json) (intent : Uuid) : Result Db := do
  require (row.handedOverAt.isSome = true)
    (.conflict "confirmed handover is required before results or proofs")
  match db.work.benchmarkPayloads.lookup (benchmarkId, kind) with
  | some old =>
      require (old.digest = payload)
        (.conflict "benchmark payload is immutable after its first upload")
      return db
  | none =>
      require (row.state = .accepted)
        (.conflict "benchmark no longer accepts a first result/proof upload")
      let db := { db with work := { db.work with
        benchmarkPayloads :=
          AList.insert (benchmarkId, kind) ⟨payload, payload⟩ db.work.benchmarkPayloads } }
      let upstream := payload.set "benchmark_id" (.str benchmarkId)
      let upstream := if kind = .results then upstream.set "stopped" (.bool false) else upstream
      WorkRequests.enqueue db identity kind upstream intent

def nonceCount (row : Reservation) : Option Json :=
  (row.assignment.getD .null).get? "num_nonces"

/-- A whole-benchmark Merkle root and one quality for each nonce. -/
def results (db : Db) (benchmarkId : String) (memberId : Uuid) (merkleRoot : String)
    (qualities : List ℤ) (intent : Uuid) : Result Db := do
  require (merkleRoot.length = 64 ∧ merkleRoot.toList.all fun c => isHexDigit c ∧ ¬ c.isUpper)
    (.funds "invalid Merkle root")
  require (∀ q ∈ qualities, -(2 ^ 31) ≤ q ∧ q < 2 ^ 31)
    (.funds "nonce qualities must be protocol int32 integers")
  let (identity, row) ← owned db benchmarkId memberId
  require (nonceCount row = some (.int qualities.length))
    (.funds "result does not contain every benchmark nonce")
  store db identity row benchmarkId .results
    (.obj [("merkle_root", .str merkleRoot), ("solution_quality", .arr (qualities.map .int))]) intent

/-- Only the TIG observation adapter calls this; never a member endpoint. -/
def sampled (db : Db) (benchmarkId : String) (nonces : List ℕ) (evidence : Json) : Result Db := do
  require (evidence.truthy ∧ nonces.Nodup)
    (.funds "invalid authoritative sampled nonces or missing evidence")
  let (_, row) ← fetch (db.funds.reservations.find fun _ r => r.benchmarkId = some benchmarkId)
    (.funds "unknown pool benchmark")
  let count := match nonceCount row with
    | some (.int n) => n
    | _ => 0
  require (∀ n ∈ nonces, (n : ℤ) < count)
    (.funds "sampled nonce is outside the assigned benchmark")
  let values : Json := .arr ((nonces.insertionSort (· ≤ ·)).map fun n => .int n)
  match db.work.benchmarkProgress.lookup benchmarkId with
  | some previous =>
      require (previous.sampledNonces = values) (.conflict "TIG sampled nonce set changed")
      return db
  | none =>
      return { db with work := { db.work with
        benchmarkProgress :=
          AList.insert benchmarkId ⟨values, evidence⟩ db.work.benchmarkProgress } }

/-- `row["assignment"]["num_nonces"]` -/
def assignedNonces (row : Reservation) : Result ℕ :=
  match nonceCount row with
  | some (.int n) => .ok n.toNat
  | _ => .error (.malformed "num_nonces")

/-- `proof["leaf"]["nonce"]` -/
def nonceOf (proof : Json) : ℤ :=
  match (proof.get? "leaf").bind (·.get? "nonce") with
  | some (.int nonce) => nonce
  | _ => 0

/-- What is stored of proofs, in the order of their nonces. -/
def proofOf (values : List Json) : Json :=
  .obj [("merkle_proofs", .arr (values.insertionSort fun a b => nonceOf a ≤ nonceOf b))]

/-- The nonce that a proof opens the root at. -/
def checkProof (blake3 : Blake3) (count : ℕ) (merkleRoot : Option Json) (proof : Json) :
    Result ℤ := do
  let root ← proofRoot blake3 count proof
  require (merkleRoot = some (.str root))
    (.funds "proof does not match the committed benchmark root")
  return nonceOf proof

/-- Proofs for exactly the sampled nonces, each against the committed root. -/
def proofs (blake3 : Blake3) (db : Db) (benchmarkId : String) (memberId : Uuid)
    (values : List Json) (intent : Uuid) : Result Db := do
  let (identity, row) ← owned db benchmarkId memberId
  let progress ← fetch (db.work.benchmarkProgress.lookup benchmarkId)
    (.conflict "results and authoritative sampled nonces must be stored first")
  let result ← fetch (db.work.benchmarkPayloads.lookup (benchmarkId, .results))
    (.conflict "results and authoritative sampled nonces must be stored first")
  let count ← assignedNonces row
  let nonces ← values.mapM (checkProof blake3 count (result.payload.get? "merkle_root"))
  require (progress.sampledNonces = .arr ((nonces.insertionSort (· ≤ ·)).map .int))
    (.funds "proofs must cover the exact sampled nonce set once")
  store db identity row benchmarkId .proofs (proofOf values) intent

end MemberProtocol

/-! ## Outcomes found in a saved block -/

namespace Reconciliation

/-- What is written when work expires before its results were sent. -/
def unsentEvidence (lifetime : Json) (intents : List (Uuid × ProtocolIntent)) : Json :=
  (lifetime.set "results_sent" (.bool false)).set "result_intent_id"
    ((intents.head?.map fun i => Json.str i.1).getD .null)

/-- An accepted assignment whose results were never sent can expire. -/
def expireUnsentResults (db : Db) (reservationId : Uuid) (height : ℤ) (lifetime : Json) :
    Result (Db × Bool) := do
  let row ← lockedReservation db reservationId
  let intents := (db.work.protocolOutbox.entries.map fun e => (e.1, e.2)).filter fun i =>
    i.2.reservationId = reservationId ∧ i.2.kind ≠ .precommit
  let answered := db.work.submissionResponses.any fun _ s => intents.any (·.1 = s.outboxId)
  if row.state ≠ .accepted ∨ row.handedOverAt = none ∨
      (intents.any fun i => i.2.kind = .proofs ∨ i.2.state ≠ .ready ∨ i.2.sentAt ≠ none) ∨
      answered ∨ db.work.benchmarkProgress.any fun key _ => some key = row.benchmarkId then
    return (db, false)
  else
    let evidence := unsentEvidence lifetime intents
    let (db, _) ← recordOutcome db reservationId .expired height evidence
    let db := intents.foldl (fun db i =>
      db.putIntent i.1 { i.2 with state := .cancelled, evidence := some evidence }) db
    return (db, true)

/-- `response->>'status'='200'`, which a text can be as well. -/
def saysTaken (response : Json) : Bool :=
  match response.get? "status" with
  | some (.int 200) | some (.str "200") => true
  | _ => false

/-- TIG's explicit late-result rejection can end work without releasing funds. -/
def expireRejectedResults (db : Db) (reservationId : Uuid) (height : ℤ) (lifetime : Json)
    (receipt : Uuid × Json) (origin : String) : Result (Db × Bool) := do
  let row ← lockedReservation db reservationId
  let evidence := ((lifetime.set "response_id" (.str receipt.1)).set "response_sha256"
    ((receipt.2.get? "raw_sha256").getD .null)).set "origin" (.str origin)
  match Submissions.intentOf db reservationId .results with
  | none => return (db, false)
  | some (identity, intent) =>
      let confirmed := db.work.submissionResponses.any fun _ s =>
        s.outboxId = identity ∧ saysTaken s.response
      if row.state ≠ .accepted ∨ intent.state ≠ .uncertain ∨
          (Submissions.intentOf db reservationId .proofs).isSome ∨ confirmed then
        return (db, false)
      else
        let (db, _) ← recordOutcome db reservationId .expired height evidence
        return (db.putIntent identity
          { intent with state := .rejected, evidence := some evidence }, true)

end Reconciliation

end TigPool
