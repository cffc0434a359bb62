/-
# `TigPool.Reports` — report observations and post-X+2 arbitration seals

A capture is a response of TIG for one reporting round, archived whole.  What it
shows as confirmed is copied into `confirmed_reports` and `confirmed_arbitrations`
(here: the optional arbitration of a confirmed report), where it stays.  A seal
freezes, for one creation round, one capture for each reporting round in scope
and the results these captures show.

`validateReports` reads a payload the way the service does, field by field, from
parsed JSON; whatever it cannot read is a protocol error.
-/
import TigPool.Openings
import Mathlib.Data.Prod.Lex

namespace TigPool

open Basis

/-! ## Reading payloads -/

namespace Protocol

def object (value : Option Json) (label : String) : Result (List (String × Json)) :=
  match value with
  | some (.obj members) => .ok members
  | _ => .error (.protocolData (label ++ ": expected an object"))

def array (value : Option Json) (label : String) : Result (List Json) :=
  match value with
  | some (.arr items) => .ok items
  | _ => .error (.protocolData (label ++ ": expected an array"))

def integer (value : Option Json) (label : String) (minimum : ℤ := 0) : Result ℕ :=
  match value with
  | some (.int n) => do
      require (minimum ≤ n ∧ 0 ≤ n) (.protocolData (label ++ ": expected an integer"))
      return n.toNat
  | _ => .error (.protocolData (label ++ ": expected an integer"))

def text (value : Option Json) (label : String) : Result String :=
  match value with
  | some (.str s) => do
      require (s ≠ "") (.protocolData (label ++ ": expected a nonempty string"))
      return s
  | _ => .error (.protocolData (label ++ ": expected a nonempty string"))

/-- Rows by their identity; no identity may occur twice. -/
def index (rows : Option Json) (key label : String) : Result (Table String Json) := do
  let rows ← array rows label
  let add (result : Table String Json) (row : Json) : Result (Table String Json) := do
    let _ ← object (some row) label
    let identity ← text (row.get? key) (label ++ "." ++ key)
    require (identity ∉ result) (.protocolData (label ++ ": duplicate " ++ identity))
    return AList.insert identity row result
  rows.foldlM add ∅

/-- `value.get(key)`, where JSON `null` counts as absent. -/
def present (value : Json) (key : String) : Option Json :=
  match value.get? key with
  | some .null => none
  | other => other

/-- What a payload says about one report. -/
structure ReadReport where
  benchmarkId : String
  benchmarker : String
  nonce : ℕ
  round : ℕ
  /-- The height at which the report was confirmed. -/
  confirmed : Option ℕ
  /-- The confirmed arbitration; a decision without confirmation is still pending. -/
  decision : Option ConfirmedArbitration
deriving DecidableEq

def arbitrationResult (value : Option Json) : Result ArbitrationResult :=
  match value with
  | some (.str "nonreproducible") => .ok .nonreproducible
  | some (.str "reproducible") => .ok .reproducible
  | some (.str "inconclusive") => .ok .inconclusive
  | _ => .error (.protocolData "unknown arbitration result")

/-- The arbitration of a report that was confirmed at height `confirmed`, if at all. -/
def readDecision (arbitration : Json) (confirmed : Option ℕ) :
    Result (Option ConfirmedArbitration) := do
  let result ← arbitrationResult ((arbitration.get? "details").bind (·.get? "result"))
  match present arbitration "state" with
  | none => return none
  | some state =>
      let decided ← integer (state.get? "block_confirmed") "arbitration.block_confirmed"
      require (confirmed.any (· ≤ decided) = true)
        (.protocolData "arbitration confirmation precedes its report")
      return some { result, confirmedHeight := decided }

def readReport (report : Json) (arbitration : Option Json) : Result ReadReport := do
  let details := report.get? "details"
  let _ ← object details "report.details"
  let benchmarkId ← text (details.bind (·.get? "benchmark_id")) "report.benchmark_id"
  let benchmarker ← text (details.bind (·.get? "benchmarker")) "report.benchmarker"
  let nonce ← integer (details.bind (·.get? "nonce")) "report.nonce"
  let round ← integer (details.bind (·.get? "round")) "report.round" 1
  let confirmed ← match present report "state" with
    | none => pure none
    | some state => some <$> integer (state.get? "block_confirmed") "report.block_confirmed"
  let decision ← match arbitration with
    | none => pure none
    | some arbitration => readDecision arbitration confirmed
  return { benchmarkId, benchmarker, nonce, round, confirmed, decision }

/-- Every report of a payload.  Pending, inconclusive, reproducible and upheld
stay distinct. -/
def validateReports (payload : Json) : Result (Table String ReadReport) := do
  let reports ← index (payload.get? "reports") "id" "reports"
  let arbitrations ← index (payload.get? "arbitrations") "report_id" "arbitrations"
  require (arbitrations.keys ⊆ reports.keys) (.protocolData "arbitration has no matching report")
  let add (results : Table String ReadReport) (row : String × Json) :
      Result (Table String ReadReport) := do
    let read ← readReport row.2 (arbitrations.lookup row.1)
    return AList.insert row.1 read results
  (reports.entries.map fun e => (e.1, e.2)).foldlM add ∅

/-- The report as a fact, once TIG has confirmed it. -/
def ReadReport.fact (read : ReadReport) : Option ConfirmedReport :=
  read.confirmed.map fun height =>
    { reportingRound := read.round, benchmarkId := read.benchmarkId,
      benchmarker := read.benchmarker, nonce := read.nonce, confirmedHeight := height }

/-- The report as a seal freezes it. -/
def ReadReport.frozen (read : ReadReport) : SealedReport where
  benchmarkId := read.benchmarkId
  benchmarker := read.benchmarker
  nonce := read.nonce
  round := read.round
  result := read.decision.map (·.result)

end Protocol

namespace Reports

open Protocol

/-! ## Facts -/

/-- `_facts`: the reports of a payload requested for one reporting round, at the
height of the block it was captured at. -/
def facts (payload : Json) (reportingRound height : ℕ) : Result (Table String ReadReport) := do
  let reads ← validateReports payload
  require (reads.any (fun _ r => r.round ≠ reportingRound) = false)
    (.protocolData "report response differs from its requested reporting round")
  require (reads.any (fun _ r => r.confirmed.any (height < ·)) = false)
    (.protocolData "report confirmation follows the captured block")
  require (reads.any (fun _ r => r.decision.any (height < ·.confirmedHeight)) = false)
    (.protocolData "arbitration confirmation follows the captured block")
  return reads

/-- Do the facts omit or contradict a report that is on record and that they
should show? -/
def contradictsReport (known : Table String ConfirmedReport) (reads : Table String ReadReport)
    (due : String → ConfirmedReport → Bool) : Bool :=
  known.any fun identity row => due identity row ∧
    (reads.lookup identity).bind (·.fact) ≠ some { row with arbitration := none }

/-- Do the facts omit or contradict an arbitration that is on record and that
they should show? -/
def contradictsArbitration (known : Table String ConfirmedReport) (reads : Table String ReadReport)
    (due : String → ConfirmedReport → ConfirmedArbitration → Bool) : Bool :=
  known.any fun identity row => row.arbitration.any fun a => due identity row a ∧
    (reads.lookup identity).bind (·.decision) ≠ some a

/-- The facts on record a capture at this height should show. -/
def requireKnownFacts (db : Db) (reportingRound height : ℕ) (payload : Json) : Result Unit := do
  let reads ← facts payload reportingRound height
  require (contradictsReport db.reports.confirmed reads (fun _ row =>
      row.reportingRound = reportingRound ∧ row.confirmedHeight ≤ height) = false)
    (.conflict "report seal omits or contradicts confirmed evidence learned during replay")
  require (contradictsArbitration db.reports.confirmed reads (fun _ row a =>
      row.reportingRound = reportingRound ∧ a.confirmedHeight ≤ height) = false)
    (.conflict "report seal omits or contradicts an already confirmed arbitration")

/-- Add what one report of a complete capture shows as confirmed; what is on
record already stays. -/
def remember (known : Table String ConfirmedReport) (item : String × ReadReport) :
    Table String ConfirmedReport :=
  match item.2.fact with
  | none => known
  | some fact => match known.lookup item.1 with
    | none => AList.insert item.1 { fact with arbitration := item.2.decision } known
    | some row =>
        AList.insert item.1 { row with arbitration := row.arbitration <|> item.2.decision } known

/-! ## Scopes and blocks -/

def hasUnresolvedConflict (db : Db) (height : ℕ) : Bool :=
  db.observation.conflicts.any fun alert => alert.height = height ∧ ¬ alert.resolved

/-- Financial mutations rest on blocks without an unresolved conflict. -/
def requireBlock (db : Db) (blockId : String) : Result Unit :=
  require ((db.observation.blocks.lookup blockId).any
      (fun block => hasUnresolvedConflict db block.height) = false)
    (.conflict "settlement evidence has a conflicting observed block")

/-- The height of a validated block header. -/
def anchorHeight (db : Db) (blockId : String) : Result ℕ := do
  requireBlock db blockId
  let block ← fetch (db.observation.blocks.lookup blockId)
    (.protocolData "report evidence needs a complete observed block anchor")
  return block.height

/-- The reporting rounds in which a benchmark of the creation round is known to
have been reportable or reported. -/
def checkScope (db : Db) (creationRound : ℕ) (reportingRounds : List ℤ) : Result Unit :=
  require (db.reports.reportingRounds.any (fun _ m =>
        m.creationRound = creationRound ∧ (m.reportingRound : ℤ) ∉ reportingRounds) = false ∧
      db.reports.confirmed.any (fun _ p => (p.reportingRound : ℤ) ∉ reportingRounds ∧
        db.funds.reservations.any fun _ r =>
          r.benchmarkId = some p.benchmarkId ∧ r.creationRound = creationRound) = false)
    (.conflict "reporting scope omits a known benchmark reporting round")

def scope (db : Db) (creationRound : ℤ) (reportingRounds : List ℤ) (adapterVersion : String)
    (evidence : Json) : Result Db := do
  let round ← units creationRound true
  require (reportingRounds ≠ [] ∧ reportingRounds.all (0 < ·) ∧ reportingRounds.Nodup)
    (.funds "explicit, unique protocol reporting rounds required")
  require (adapterVersion ≠ "" ∧ evidence.truthy)
    (.funds "reporting-round mapping requires adapter version and evidence")
  let values := reportingRounds.insertionSort (· ≤ ·)
  let _ ← checkScope db round values
  let row : ReportScope := { reportingRounds := values, adapterVersion, evidence }
  match db.reports.scopes.lookup round with
  | some previous =>
      require (previous = row) (.conflict "reporting-round scope is already frozen")
      return db
  | none =>
      return { db with reports :=
        { db.reports with scopes := AList.insert round row db.reports.scopes } }

/-! ## Captures -/

def contradiction (db : Db) (reads : Table String ReadReport) (reportingRound height : ℕ) :
    Option String :=
  if contradictsArbitration db.reports.confirmed reads (fun identity row a =>
      (row.reportingRound = reportingRound ∧ a.confirmedHeight ≤ height) ∨
        ((reads.lookup identity).bind (·.decision)).isSome) then
    some "capture omits or contradicts a previously confirmed arbitration"
  else if contradictsReport db.reports.confirmed reads (fun identity row =>
      (row.reportingRound = reportingRound ∧ row.confirmedHeight ≤ height) ∨
        ((reads.lookup identity).bind (·.fact)).isSome) then
    some "capture omits or contradicts a previously confirmed report"
  else none

def message : Error → String
  | .funds m | .conflict m | .insufficientFunds m | .protocolData m | .integrity m | .value m
  | .malformed m => m

/-- The last transaction of `record`: the height of the block was read before. -/
def archive (db : Db) (round height : ℕ) (blockId : String) (payload metadata : Json)
    (error : Option String) (identity : Uuid) : Result (Db × Uuid) := do
  let inputDigest : Json := .obj [("error", error.elim .null .str), ("metadata", metadata),
    ("payload", payload)]
  let (reads, error) := match facts payload round height with
    | .ok reads => (reads, error)
    | .error failure => (∅, some (message failure))
  match db.reports.captures.find fun _ c =>
      c.reportingRound = round ∧ c.blockId = blockId ∧ c.inputDigest = inputDigest with
  | some (previous, _) => return (db, previous)
  | none =>
      let error := (contradiction db reads round height).or error
      require (identity ∉ db.reports.captures) (.integrity "report_captures_pkey")
      let capture : ReportCapture :=
        { reportingRound := round, blockId, inputDigest, payload, metadata,
          complete := error.isNone, error, createdAt := db.reports.captures.entries.length }
      let confirmed := if error.isNone then
          (reads.entries.map fun e => (e.1, e.2)).foldl remember db.reports.confirmed
        else db.reports.confirmed
      return ({ db with reports := { db.reports with
        captures := AList.insert identity capture db.reports.captures, confirmed } }, identity)

/-- Preserve malformed or incomplete responses without treating them as empty. -/
def record (db : Db) (reportingRound : ℤ) (blockId : String) (payload metadata : Json)
    (error : Option String) (identity : Uuid) : Result (Db × Uuid) := do
  let round ← units reportingRound true
  let height ← anchorHeight db blockId
  archive db round height blockId payload metadata error identity

/-- The retention policy drops the payload of a capture; its row stays. -/
def expire (db : Db) (identity : Uuid) : Result Db := do
  let capture ← fetch (db.reports.captures.lookup identity) (.funds "unknown report capture")
  require (capture.expiredAt = none) (.integrity "retention_guard")
  let row := { capture with expiredAt := some db.clock }
  return { db with reports :=
    { db.reports with captures := AList.insert identity row db.reports.captures } }

/-- The last transaction of `recordIndex`. -/
def archiveIndex (db : Db) (round : ℕ) (blockId playerId challengeId : String)
    (payload metadata : Json) (error : Option String) (identity : Uuid) : Result (Db × Uuid) := do
  let inputDigest : Json := .obj [("error", error.elim .null .str), ("metadata", metadata),
    ("payload", payload)]
  let hexId (value : Json) : Option String := match value with
    | .str s => if s.length = 32 ∧ s.toList.all (fun c => isHexDigit c ∧ ¬ c.isUpper) then some s
        else none
    | _ => none
  let (identities, error) := match payload.get? "benchmark_ids" with
    | some (.arr values) =>
        let ids := values.filterMap hexId
        if ids.length = values.length ∧ ids.Nodup then (ids, error)
        else ([], some "malformed reportable benchmark index")
    | _ => ([], some "malformed reportable benchmark index")
  match db.reports.indexCaptures.find fun _ c => c.reportingRound = round ∧ c.blockId = blockId ∧
      c.playerId = playerId ∧ c.challengeId = challengeId ∧ c.inputDigest = inputDigest with
  | some (previous, _) => return (db, previous)
  | none =>
      let owned := (db.funds.reservations.entries.map (·.2)).filterMap fun r =>
        match r.benchmarkId with
        | some b => if b ∈ identities then some (b, r) else none
        | none => none
      let stranger := owned.any fun o =>
        let settings := (o.2.assignment.getD (.obj [])).get? "settings"
        settings.bind (·.get? "player_id") ≠ some (.str playerId) ∨
          settings.bind (·.get? "challenge_id") ≠ some (.str challengeId)
      let elsewhere := owned.any fun o =>
        (db.reports.reportingRounds.lookup o.1).any (·.reportingRound ≠ round)
      let error := if elsewhere then some "benchmark appears in conflicting protocol reporting rounds"
        else if stranger then some "reporting index ownership differs from the immutable assignment"
        else error
      require (identity ∉ db.reports.indexCaptures) (.integrity "report_index_captures_pkey")
      let capture : ReportIndexCapture :=
        { reportingRound := round, blockId, playerId, challengeId, inputDigest,
          complete := error.isNone, error }
      let add (rows : Table String BenchmarkReportingRound) (o : String × Reservation) :=
        if o.1 ∈ rows then rows
        else AList.insert o.1 ⟨o.2.creationRound, round⟩ rows
      return ({ db with reports := { db.reports with
        indexCaptures := AList.insert identity capture db.reports.indexCaptures
        reportingRounds := if error.isNone then owned.foldl add db.reports.reportingRounds
          else db.reports.reportingRounds } }, identity)

/-- Remember positive public reporting-round membership; absence proves nothing. -/
def recordIndex (db : Db) (reportingRound : ℤ) (blockId playerId challengeId : String)
    (payload metadata : Json) (error : Option String) (identity : Uuid) : Result (Db × Uuid) := do
  let round ← units reportingRound true
  let _ ← anchorHeight db blockId
  archiveIndex db round blockId playerId challengeId payload metadata error identity

/-! ## Seals -/

/-- The capture of a reporting round at the highest block, the newest of those. -/
def latestCapture (db : Db) (reportingRound : ℕ) : Option Uuid :=
  let position (e : Uuid × ReportCapture) : WithBot (Lex (ℕ × ℕ)) :=
    (db.observation.blocks.lookup e.2.blockId).elim ⊥ fun block =>
      (toLex (block.height, e.2.createdAt) : Lex (ℕ × ℕ))
  (((db.reports.captures.entries.map fun e => (e.1, e.2)).filter fun e =>
    e.2.reportingRound = reportingRound).argmax position).map (·.1)

/-- The end of creation round X+2 has been observed. -/
def deadline (db : Db) (creationRound : ℕ) (blockId : String) : Result Unit := do
  let block ← fetch (db.observation.blocks.lookup blockId) (.protocolData "unknown block")
  require (creationRound + 3 ≤ block.round)
    (.conflict "the end of creation round X+2 has not been observed")

def submissionPeriod (metadata : Json) : Result ℕ :=
  match metadata.get? "report_submission_period" with
  | none => .ok 2
  | some value => integer (some value) "report submission period"

/-- What a capture in a seal must satisfy when the seal is made and again
whenever it is used. -/
def checkCapture (db : Db) (creationRound : ℕ) (item : Uuid × ReportCapture) : Result Unit := do
  let (identity, capture) := item
  let block ← fetch (db.observation.blocks.lookup capture.blockId) (.protocolData "unknown block")
  requireBlock db capture.blockId
  let period ← submissionPeriod capture.metadata
  require (creationRound + 3 ≤ block.round ∧ capture.reportingRound + period + 1 ≤ block.round)
    (.conflict "sealed capture predates the final reporting window")
  require (latestCapture db capture.reportingRound = some identity)
    (.conflict "report observations changed after this seal; reconcile a new version")
  require (capture.expiredAt = none)
    (.conflict "report capture payload expired under the retention policy")
  requireKnownFacts db capture.reportingRound block.height capture.payload

/-- Add the results of one capture of a seal. -/
def combine (db : Db) (creationRound : ℕ) (combined : List (String × SealedReport))
    (item : Uuid × ReportCapture) : Result (List (String × SealedReport)) := do
  require (item.2.complete = true)
    (.conflict "report capture is incomplete or predates the end of X+2")
  checkCapture db creationRound item
  let reads ← validateReports item.2.payload
  require (∀ e ∈ combined, e.1 ∉ reads) (.conflict "report appears in multiple reporting rounds")
  return combined ++ reads.entries.map fun e => (e.1, e.2.frozen)

def sealRound (db : Db) (creationRound : ℕ) (captureIds : List Uuid) (blockId : String)
    (identity : Uuid) : Result (Db × Uuid) := do
  deadline db creationRound blockId
  require (captureIds ≠ [] ∧ captureIds.Nodup) (.funds "unique complete report captures required")
  requireBlock db blockId
  let frozenScope ← fetch (db.reports.scopes.lookup creationRound)
    (.conflict "verified protocol reporting-round scope is missing")
  checkScope db creationRound frozenScope.reportingRounds
  let captures := captureIds.filterMap fun c => (db.reports.captures.lookup c).map (c, ·)
  require (captures.length = captureIds.length ∧
      (captures.map fun c => (c.2.reportingRound : ℤ)).insertionSort (· ≤ ·)
        = frozenScope.reportingRounds)
    (.conflict "captures do not cover every required reporting round exactly once")
  let combined ← captures.foldlM (combine db creationRound) []
  let row : ReportSeal :=
    { creationRound, blockId, captureIds := captureIds.insertionSort (· ≤ ·), reports := combined }
  match db.reports.seals.find fun _ s => s.creationRound = creationRound ∧
      s.captureIds = row.captureIds ∧ s.reports.isPerm combined with
  | some (previous, _) => return (db, previous)
  | none =>
      require (identity ∉ db.reports.seals) (.integrity "round_report_seals_pkey")
      return ({ db with reports :=
        { db.reports with seals := AList.insert identity row db.reports.seals } }, identity)

/-- A seal is good for its creation round as long as nothing it rests on has changed. -/
def requireSeal (db : Db) (identity : Uuid) (creationRound : ℕ) : Result ReportSeal := do
  let row ← fetch (db.reports.seals.lookup identity)
    (.conflict "a matching post-X+2 report seal is required")
  require (row.creationRound = creationRound)
    (.conflict "a matching post-X+2 report seal is required")
  let frozenScope ← fetch (db.reports.scopes.lookup creationRound)
    (.malformed "creation round has no scope")
  checkScope db creationRound frozenScope.reportingRounds
  requireBlock db row.blockId
  let captures := row.captureIds.filterMap fun c => (db.reports.captures.lookup c).map (c, ·)
  captures.forM (checkCapture db creationRound)
  return row

end Reports

end TigPool
