/-
# `TigPool.Protocol` — what an observation must show before it is used

An observation holds raw responses of TIG, fetched between two reads of one block.
Three encodings occur: the whole network, the block tables with only the pool's own feed,
and the compact form of a whole-network observation.  Each is read field by field from
parsed JSON.  A field that is missing or of the wrong kind fails with `malformed`, which
stands for `KeyError`, `TypeError` and `AttributeError`; `validateSnapshot` reports these
as protocol errors.
-/
import TigPool.EqualBundle
import TigPool.Reports

namespace TigPool

open Basis

/-- White space of a text. -/
def isSpace (c : Char) : Bool :=
  c.toNat ∈ [0x9, 0xa, 0xb, 0xc, 0xd, 0x1c, 0x1d, 0x1e, 0x1f, 0x20, 0x85, 0xa0, 0x1680, 0x2000,
    0x2001, 0x2002, 0x2003, 0x2004, 0x2005, 0x2006, 0x2007, 0x2008, 0x2009, 0x200a, 0x2028, 0x2029,
    0x202f, 0x205f, 0x3000]

namespace Protocol

/-! ## Reading -/

/-- `value[key]` -/
def field (value : Json) (key : String) : Result Json :=
  fetch (value.get? key) (.malformed key)

/-- An address, read from a field. -/
def addressOf : Json → Result Address
  | .str s => address s
  | _ => .error (.funds "invalid Ethereum wallet address")

def membersOf (value : Json) (e : Error) : Result (List (String × Json)) :=
  match value with
  | .obj members => .ok members
  | _ => .error e

/-- `set(value) == names` -/
def hasFields (members : List (String × Json)) (names : List String) : Prop :=
  members.map (·.1) ⊆ names ∧ names ⊆ members.map (·.1)

instance (members : List (String × Json)) (names : List String) :
    Decidable (hasFields members names) :=
  inferInstanceAs (Decidable (_ ∧ _))

/-- `value.items()` -/
def items : Json → Result (List (String × Json))
  | .obj members => .ok members
  | _ => .error (.malformed "items")

/-- `_integer` where the least value may be negative. -/
def signed (value : Option Json) (label : String) (minimum : ℤ) : Result ℤ :=
  match value with
  | some (.int n) => do
      require (minimum ≤ n) (.protocolData (label ++ ": expected an integer"))
      return n
  | _ => .error (.protocolData (label ++ ": expected an integer"))

/-- `_counts`: an object that maps nonempty names to counts. -/
def counts (value : Json) (label : String) : Result (List (String × ℕ)) := do
  let members ← object (some value) label
  members.mapM fun member => do
    let name ← text (some (.str member.1)) label
    let count ← integer (some member.2) label
    return (name, count)

/-- Can the value be a member of a set? -/
def hashable : Json → Bool
  | .arr _ | .obj _ => false
  | _ => true

/-- `set(tracks)`, of which a round trip through `_counts` only admits names. -/
def trackNames : Json → Result (List Json)
  | .obj members => .ok (members.map fun member => .str member.1)
  | .arr items => do
      require (items.all hashable = true) (.malformed "unhashable track")
      return items
  | .str s => .ok (s.toList.map fun c => .str c.toString)
  | _ => .error (.malformed "tracks")

/-- `track in tracks` -/
def hasTrack (tracks track : Json) : Result Bool :=
  match tracks with
  | .obj members => do
      require (hashable track = true) (.malformed "unhashable track")
      return members.any fun member => track = .str member.1
  | .arr items => .ok (items.any (track = ·))
  | .str s =>
      match track with
      | .str t => .ok (decide (t.toList <:+: s.toList))
      | _ => .error (.malformed "track")
  | _ => .error (.malformed "tracks")

/-- A name that an object is asked for; anything else is in no object. -/
def lookupName (t : Table String Json) (name : Json) : Result (Option Json) :=
  match name with
  | .str s => .ok (t.lookup s)
  | other => do
      require (hashable other = true) (.malformed "unhashable name")
      return none

structure Snapshot where
  blockId : String
  previousBlockId : String
  height : ℕ
  round : ℕ
  timestamp : ℕ
  bundles : List Bundle
  qualifiers : Table Group ℕ
  precommits : Table String Json
  algorithms : Table String Json
  challenges : Table String Json
  /-- The best reference of each algorithm and track, with its parameters, where a compact
  capture kept them. -/
  selectionReferences : Option (Table (String × String) (Bundle × Json)) := none
  /-- A scoped capture holds only the pool's bundles and qualifier counts. -/
  isScoped : Bool := false

/-- Whom a precommit belongs to. -/
def ownerOf (precommit : Json) : String :=
  match (precommit.get? "settings").bind (·.get? "player_id") with
  | some (.str playerId) => playerId
  | _ => ""

/-- The snapshot as far as credit is concerned, beside the feeds of its observation. -/
def Snapshot.credited (snapshot : Snapshot) (feeds : Table String Json) : BlockSnapshot where
  bundles := snapshot.bundles
  qualifiers := snapshot.qualifiers
  precommits := snapshot.precommits.mapVals fun _ row => ownerOf row
  feeds

/-! ## The header -/

/-- The block says how many ids of a kind are active; a scoped capture keeps only the
pool's benchmarks. -/
def checkCount (observation : Json) (scope : Option String) (kind : String)
    (size expected : ℕ) : Result Unit := do
  if kind = "benchmark" ∧ scope.isSome then
    let count ← field (← field observation "scope") "active_benchmark_count"
    require (count = .int expected ∧ size ≤ expected)
      (.protocolData "scoped active benchmark IDs contradict the block's count")
  else
    require (size = expected)
      (.protocolData ("active " ++ kind ++ " ID count is inconsistent"))

def activeIds (observation details active : Json) (scope : Option String) (kind : String) :
    Result (List String) := do
  let values ← array (some (← field active kind)) ("active_ids." ++ kind)
  let ids ← values.mapM fun value => text (some value) kind
  let expected ← integer ((← field details "num_active").get? kind) ("num_active." ++ kind)
  require ids.Nodup (.protocolData ("active " ++ kind ++ " ID count is inconsistent"))
  checkCount observation scope kind ids.length expected
  return ids

structure Header where
  blockId : String
  previousBlockId : String
  height : ℕ
  round : ℕ
  timestamp : ℕ
  benchmark : List String
  opow : List String
  code : List String
  challenge : List String

def readHeader (observation : Json) (scope : Option String) : Result Header := do
  let start ← field (← field observation "start") "block"
  let stop ← field (← field observation "end") "block"
  let _ ← object (some start) "start.block"
  let _ ← object (some stop) "end.block"
  let details ← field start "details"
  let _ ← object (some details) "block.details"
  let blockId ← text (start.get? "id") "block.id"
  require (stop.get? "id" = some (.str blockId) ∧ stop.get? "details" = some details ∧
      stop.get? "config" = start.get? "config" ∧ (start.get? "config").isSome)
    (.protocolData "block changed while collecting the observation")
  let height ← integer (details.get? "height") "block.height"
  let round ← integer (details.get? "round") "block.round" 1
  let timestamp ← integer (details.get? "timestamp") "block.timestamp"
  let previousBlockId ← text (details.get? "prev_block_id") "block.prev_block_id"
  let active ← field (← field start "data") "active_ids"
  let _ ← object (some active) "block.active_ids"
  let benchmark ← activeIds observation details active scope "benchmark"
  let opow ← activeIds observation details active scope "opow"
  let code ← activeIds observation details active scope "code"
  let challenge ← activeIds observation details active scope "challenge"
  return { blockId, previousBlockId, height, round, timestamp, benchmark, opow, code, challenge }

/-- The records of the active ids; each must be there. -/
def activeRecords (ids : List String) (rows : Table String Json) (kind : String) :
    Result (Table String Json) := do
  require (∀ identity ∈ ids, identity ∈ rows)
    (.protocolData ("missing active " ++ kind ++ " records"))
  return rows.filter fun identity _ => identity ∈ ids

/-! ## Feeds -/

/-- The benchmark records that feeds show, and who was shown to have failed. -/
structure Records where
  precommits : Table String Json
  benchmarks : Table String Json
  proofs : Table String Json
  frauds : List String

/-- The rows of one player join those of the others; no record belongs to two. -/
def joinRows (target rows : Table String Json) (name : String) : Result (Table String Json) := do
  require (∀ identity ∈ rows.keys, identity ∉ target)
    (.protocolData (name ++ ": record belongs to multiple player responses"))
  return target ∪ rows

/-- Does every precommit of the feed belong to the player? -/
def checkOwner (playerId : String) (rows : Table String Json) : Result Unit :=
  (rows.entries.map fun e => e.2).forM fun row => do
    let owner ← field (← field row "settings") "player_id"
    require (owner = .str playerId)
      (.protocolData "precommit owner differs from the requested player")

def addFeed (records : Records) (feed : String × Json) : Result Records := do
  let rows ← index (some (← field feed.2 "precommits")) "benchmark_id" "precommits"
  checkOwner feed.1 rows
  let precommits ← joinRows records.precommits rows "precommits"
  let rows ← index (some (← field feed.2 "benchmarks")) "id" "benchmarks"
  let benchmarks ← joinRows records.benchmarks rows "benchmarks"
  let rows ← index (some (← field feed.2 "proofs")) "benchmark_id" "proofs"
  let proofs ← joinRows records.proofs rows "proofs"
  let frauds ← index (some (← field feed.2 "frauds")) "benchmark_id" "frauds"
  return { precommits, benchmarks, proofs, frauds := frauds.keys ++ records.frauds }

/-- The feeds that the observation must hold: all active players', or the pool's own. -/
def readFeeds (observation : Json) (header : Header) (scope : Option String) :
    Result (List (String × Json)) := do
  let players ← object (some (← field observation "players")) "players"
  let names := players.map (·.1)
  match scope with
  | none =>
      require (names ⊆ header.opow ∧ header.opow ⊆ names)
        (.protocolData "player observations do not cover the active OPoW players")
      return players
  | some scope =>
      let expected := if scope ∈ header.opow then [scope] else []
      require (names ⊆ expected ∧ expected ⊆ names)
        (.protocolData "scoped observation must hold exactly the pool's own feed")
      if scope ∈ header.opow then return players
      let pending ← object (observation.get? "pool_pending") "pool_pending"
      require (header.benchmark = [])
        (.protocolData "inactive pool has active benchmark credit")
      return [(scope, .obj pending)]

/-! ## Bundles -/

/-- Every record of a benchmark is confirmed at the observed block. -/
def checkConfirmed (height : ℕ) (name : String) (record : Json) : Result Unit := do
  let confirmed ← integer ((← field record "state").get? "block_confirmed")
    (name ++ ".block_confirmed")
  require (confirmed ≤ height) (.protocolData (name ++ " confirmed after the observed block"))

/-- An object, or algorithm defaults; an absent field is a gap. -/
def isParameters : Option Json → Bool
  | some .null | some (.obj _) => true
  | _ => false

/-- The scores of an active benchmark, one for each of its active bundles. -/
def readScores (preDetails benchmarkDetails : Json) : Result (List Json) := do
  let scores ← array (benchmarkDetails.get? "average_quality_by_bundle") "bundle scores"
  let active ← integer (benchmarkDetails.get? "num_active_bundles") "num_active_bundles" 1
  let bundles ← integer (preDetails.get? "num_bundles") "precommit.num_bundles" 1
  require (scores.length = active ∧ active ≤ bundles)
    (.protocolData "active bundle count differs from score count")
  return scores

def readQuality (value : Json) : Result ℤ := do
  let quality ← signed (some value) "bundle quality" (-2 ^ 31)
  require (quality < 2 ^ 31) (.protocolData "bundle quality exceeds the protocol int32 range")
  return quality

def nameOf (value : Json) (e : Error) : Result String :=
  match value with
  | .str s => .ok s
  | _ => .error e

/-- The bundles of a benchmark, one for each score, in the order of the scores. -/
def scoredBundles (bundle : Bundle) (scores : List Json) : Result (List Bundle) :=
  scores.zipIdx.mapM fun score => do
    let quality ← readQuality score.1
    return { bundle with activeIndex := score.2, quality := quality }

/-- The records of an active benchmark fit together at the observed height. -/
def checkLifecycle (height : ℕ) (precommit benchmark proof : Json) : Result Unit := do
  let preDetails ← field precommit "details"
  let benchmarkDetails ← field benchmark "details"
  checkConfirmed height "precommit" precommit
  checkConfirmed height "benchmark" benchmark
  checkConfirmed height "proof" proof
  let activated ← integer ((← field proof "details").get? "block_active") "proof.block_active"
  require (activated ≤ height ∧ benchmarkDetails.get? "stopped" = some (.bool false))
    (.protocolData "active benchmark has an incompatible lifecycle state")
  let _ ← integer (preDetails.get? "block_started") "precommit.block_started"
  let _ ← integer (preDetails.get? "num_bundles") "precommit.num_bundles" 1
  let _ ← integer (preDetails.get? "fuel_budget") "precommit.fuel_budget"
  let _ ← text (preDetails.get? "compute_type") "precommit.compute_type"
  require (isParameters (preDetails.get? "hyperparameters") = true)
    (.protocolData "missing or invalid precommit hyperparameters")

/-- The tracks of the challenge that a benchmark is for, if challenge and algorithm are there. -/
def tracksOf (algorithms challenges : Table String Json) (settings : Json) : Result Json := do
  let challengeName ← field settings "challenge_id"
  let unavailable :=
    Error.protocolData "active benchmark refers to an unavailable challenge or algorithm"
  let challenge ← fetch (← lookupName challenges challengeName) unavailable
  let algorithm ← fetch (← lookupName algorithms (← field settings "algorithm_id")) unavailable
  require ((← field algorithm "details").get? "challenge_id" = some challengeName)
    (.protocolData "benchmark algorithm/challenge mismatch")
  field (← field challenge "config") "active_tracks"

/-- What the bundles of a benchmark have in common. -/
def bundleOf (benchmarkId playerId : String) (settings : Json) : Result Bundle := do
  let challengeId ← text (settings.get? "challenge_id") "challenge"
  let algorithmId ← text (settings.get? "algorithm_id") "algorithm"
  -- The names of active tracks turn out to be texts when the totals are compared.
  let trackId ← nameOf (← field settings "track_id")
    (.protocolData "challenge qualifier totals omit an active track")
  return ⟨benchmarkId, 0, playerId, challengeId, algorithmId, trackId, 0⟩

/-- A track can retire while an old benchmark remains in the live feed. -/
def benchmarkBundles (header : Header) (records : Records)
    (algorithms challenges : Table String Json) (benchmarkId : String) : Result (List Bundle) := do
  let missing := Error.protocolData "missing active benchmark records"
  let precommit ← fetch (records.precommits.lookup benchmarkId) missing
  let benchmark ← fetch (records.benchmarks.lookup benchmarkId) missing
  let proof ← fetch (records.proofs.lookup benchmarkId) missing
  checkLifecycle header.height precommit benchmark proof
  let settings ← field precommit "settings"
  let tracks ← tracksOf algorithms challenges settings
  let scores ← readScores (← field precommit "details") (← field benchmark "details")
  let isActive ← hasTrack tracks (← field settings "track_id")
  if isActive then
    let common ← bundleOf benchmarkId (ownerOf precommit) settings
    scoredBundles common scores
  else return []

/-! ## Qualifiers -/

/-- A text of decimal digits. -/
def isDigits : Json → Bool
  | .str s => s ≠ "" ∧ s.toList.all Char.isDigit
  | _ => false

/-- How many bundles of each group qualify, as the record of one algorithm says. -/
def algorithmQualifiers (algorithm : String × Json) : Result (List (Group × ℕ)) := do
  let blockData ← field algorithm.2 "block_data"
  let _ ← object (some blockData) "algorithm.block_data"
  require (isDigits (← field blockData "adoption") = true)
    (.protocolData "algorithm adoption must be an exact nonnegative unit string")
  let challengeName ← field (← field algorithm.2 "details") "challenge_id"
  let tracks ← object (some (← field blockData "num_qualifiers_by_track_by_player"))
    "algorithm qualifiers"
  let rows ← tracks.mapM fun track => do
    let players ← counts track.2 "algorithm player qualifiers"
    return players.map fun player => (player.1, track.1, player.2)
  match challengeName with
  | .str challengeId =>
      return rows.flatten.map fun row => ((row.1, challengeId, algorithm.1, row.2.1), row.2.2)
  | other =>
      -- Zeros are the only counts that can reconcile with the totals of challenges.
      require (rows.flatten = [] ∨ hashable other = true) (.malformed "unhashable challenge")
      require (∀ row ∈ rows.flatten, row.2.2 = 0)
        (.protocolData "algorithm qualifiers do not reconcile with challenge totals")
      return []

section Totals

variable {κ : Type} [DecidableEq κ]

/-- What is counted under a key. -/
def counted (rows : List (κ × ℕ)) (key : κ) : ℕ :=
  ((rows.filter fun row => row.1 = key).map (·.2)).sum

/-- Two counts agree, up to zeros. -/
def Reconciles (rows expected : List (κ × ℕ)) : Prop :=
  ∀ key ∈ rows.map (·.1) ++ expected.map (·.1), counted rows key = counted expected key

instance (rows expected : List (κ × ℕ)) : Decidable (Reconciles rows expected) :=
  inferInstanceAs (Decidable (∀ _ ∈ _, _))

end Totals

/-- What OPoW says qualifies of an active player, by challenge and track. -/
def opowTotals (opow : String × Json) : Result (List ((String × String × String) × ℕ)) := do
  let challenges ← object
    (some (← field (← field opow.2 "block_data") "num_qualifiers_by_challenge_by_track"))
    "OPoW qualifiers"
  let rows ← challenges.mapM fun challenge => do
    let tracks ← counts challenge.2 "OPoW track qualifiers"
    return tracks.map fun track => ((opow.1, challenge.1, track.1), track.2)
  return rows.flatten

/-- What qualifies in a challenge, on each of its active tracks. -/
def challengeTotals (challenge : String × Json) : Result (List ((String × String) × ℕ)) := do
  let tracks ← counts (← field (← field challenge.2 "block_data") "num_qualifiers_by_track")
    "challenge qualifiers"
  let names ← trackNames (← field (← field challenge.2 "config") "active_tracks")
  require ((tracks.map fun track => Json.str track.1) ⊆ names ∧
      names ⊆ tracks.map fun track => Json.str track.1)
    (.protocolData "challenge qualifier totals omit an active track")
  return tracks.map fun track => ((challenge.1, track.1), track.2)

def rowsOf (t : Table String Json) : List (String × Json) :=
  t.entries.map fun e => (e.1, e.2)

/-- Only the pool's bundles are present in a scoped capture, so only its counts are checked
against bundles; every player's counts reconcile with the totals. -/
def readQualifiers (algorithms challenges opow : Table String Json) (bundles : List Bundle)
    (scope : Option String) : Result (Table Group ℕ) := do
  let rows ← (rowsOf algorithms).mapM algorithmQualifiers
  let rows := rows.flatten
  require (∀ row ∈ rows, scope.all (· = row.1.1) → row.2 ≤ bundles.countP (·.group = row.1))
    (.protocolData "qualifying count exceeds the available eligible bundles")
  let players ← (rowsOf opow).mapM opowTotals
  require (Reconciles (rows.map fun row => ((row.1.1, row.1.2.1, row.1.2.2.2), row.2))
      players.flatten)
    (.protocolData "algorithm qualifiers do not reconcile with OPoW player totals")
  let totals ← (rowsOf challenges).mapM challengeTotals
  require (Reconciles (rows.map fun row => ((row.1.2.1, row.1.2.2.2), row.2)) totals.flatten)
    (.protocolData "algorithm qualifiers do not reconcile with challenge totals")
  return (rows.filter fun row => scope.all (· = row.1.1)).foldl
    (fun qualifiers row => AList.insert row.1 row.2 qualifiers) ∅

/-! ## Snapshots -/

/-- `_validate_snapshot` -/
def validateBlock (observation : Json) (scope : Option String) : Result Snapshot := do
  let header ← readHeader observation scope
  let codes ← index (some (← field (← field observation "algorithms") "codes")) "id" "codes"
  let challengeRows ← index (some (← field (← field observation "challenges") "challenges")) "id"
    "challenges"
  let opowRows ← index (some (← field (← field observation "opow") "opow")) "player_id" "opow"
  let algorithms ← activeRecords header.code codes "code"
  let challenges ← activeRecords header.challenge challengeRows "challenge"
  let opow ← activeRecords header.opow opowRows "opow"
  let feeds ← readFeeds observation header scope
  let records ← feeds.foldlM addFeed ⟨∅, ∅, ∅, []⟩
  require (∀ identity ∈ header.benchmark, identity ∈ records.precommits ∧
      identity ∈ records.benchmarks ∧ identity ∈ records.proofs)
    (.protocolData "missing active benchmark records")
  require (∀ identity ∈ header.benchmark, identity ∉ records.frauds)
    (.protocolData "a failed-verification benchmark appears in the active set")
  let bundles ← (header.benchmark.insertionSort (· ≤ ·)).mapM
    (benchmarkBundles header records algorithms challenges)
  let qualifiers ← readQualifiers algorithms challenges opow bundles.flatten scope
  return { blockId := header.blockId, previousBlockId := header.previousBlockId,
           height := header.height, round := header.round, timestamp := header.timestamp,
           bundles := bundles.flatten, qualifiers,
           precommits := records.precommits.filter fun identity _ => identity ∈ header.benchmark,
           algorithms, challenges, isScoped := scope.isSome }

/-- A SHA-256 as lower case hexadecimal digits. -/
def isDigest : Json → Bool
  | .str s => s.length = 64 ∧ s.toList.all fun c => c.isDigit || ('a' ≤ c ∧ c ≤ 'f')
  | _ => false

/-- A capture of the block tables plus only the pool's own feed. -/
def validateScoped (observation : Json) : Result Snapshot := do
  let player ← text (observation.get? "pool_player_id") "pool player"
  let scope ← field observation "scope"
  let _ ← object (some scope) "scope"
  let _ ← integer (some (← field scope "active_benchmark_count")) "active benchmark count"
  require (isDigest (← field scope "active_benchmark_ids_sha256") = true)
    (.protocolData "active benchmark digest must be a SHA-256 hex string")
  validateBlock observation (some player)

/-! ## Compact captures -/

/-- What a `for` loop over the value sees. -/
def iterate : Json → Result (List Json)
  | .obj members => .ok (members.map fun member => .str member.1)
  | .arr items => .ok items
  | .str s => .ok (s.toList.map fun c => .str c.toString)
  | _ => .error (.malformed "iteration")

def number (value : Json) : Result ℤ :=
  match value with
  | .int n => .ok n
  | .bool b => .ok b.toNat
  | _ => .error (.malformed "number")

/-- The pool's qualifiers in one algorithm's record, by track. -/
def poolCounts (player : String) (code : Json) : Result (List ((Json × String) × ℕ)) := do
  let tracks ← items
    (← field (← field code "block_data") "num_qualifiers_by_track_by_player")
  tracks.mapM fun track => do
    let players ← items track.2
    require (∀ entry ∈ players, entry.1 = player)
      (.protocolData "compact qualifiers include another player")
    let challengeName ← field (← field code "details") "challenge_id"
    require (hashable challengeName = true) (.malformed "unhashable challenge")
    let count ← integer (some ((track.2.get? player).getD (.int 0))) "pool qualifiers"
    return ((challengeName, track.1), count)

/-- `value` with the member at the path replaced. -/
def setAt (value : Json) (path : List String) (member : Json) : Json :=
  match path with
  | [] => member
  | key :: rest => value.set key (setAt ((value.get? key).getD .null) rest member)

/-- The challenge with the pool's totals in place of the network's. -/
def scopeChallenge (totals : List ((Json × String) × ℕ)) (challenge : Json) : Result Json := do
  let names ← iterate (← field (← field challenge "config") "active_tracks")
  let identity ← field challenge "id"
  let tracks ← names.mapM fun name =>
    match name with
    | .str track => pure (track, Json.int (counted totals (identity, track)))
    | _ => throw (.protocolData "challenge qualifiers: expected a nonempty string")
  return challenge.set "block_data" (.obj [("num_qualifiers_by_track",
    .obj (tracks.foldr (fun track members => Json.insertMember track.1 track.2 members) []))])

/-- The explicitly scoped view of a compact capture that the strict validator is used on. -/
def compactView (observation : Json) (player : String) (isActive : Bool)
    (codes challenges : List String) (active : List Json) (totals : List ((Json × String) × ℕ)) :
    Result Json := do
  let listed (names : List String) : Json := .arr ((names.insertionSort (· ≤ ·)).map .str)
  let opow := if isActive then [Json.str player] else []
  let details := setAt (← field (← field (← field observation "start") "block") "details")
    ["num_active"] (.obj [("benchmark", .int active.length), ("challenge", .int challenges.length),
      ("code", .int codes.length), ("opow", .int opow.length)])
  let rows ← array (some (← field (← field observation "challenges") "challenges")) "challenges"
  let rows ← rows.mapM (scopeChallenge totals)
  let view := setAt observation ["start", "block", "data"] (.obj [("active_ids",
    .obj [("benchmark", .arr active), ("challenge", listed challenges), ("code", listed codes),
      ("opow", .arr opow)])])
  let view := setAt view ["start", "block", "details"] details
  let view := setAt view ["end", "block", "details"] details
  return setAt view ["challenges", "challenges"] (.arr rows)

/-- `Bundle(**value)` -/
def readBundle (value : Json) : Result (List (String × Json)) := do
  let members ← items value
  let names := ["active_index", "algorithm_id", "benchmark_id", "challenge_id", "player_id",
    "quality", "track_id"]
  require (members.map (·.1) ⊆ names ∧ names ⊆ members.map (·.1)) (.malformed "unexpected fields")
  return members

/-- One network reference, for its algorithm and track. -/
def readReference (codes challenges : Table String Json) (row : Json) :
    Result ((String × String) × Bundle × Json) := do
  let members ← readBundle (← field row "bundle")
  let value (name : String) : Option Json := members.lookup name
  let invalid := Error.protocolData "compact selection reference has an invalid scope"
  let challengeName := (value "challenge_id").getD .null
  let trackName := (value "track_id").getD .null
  let algorithm ← fetch (← lookupName codes ((value "algorithm_id").getD .null)) invalid
  let challenge ← fetch (← lookupName challenges challengeName) invalid
  let known ← hasTrack (← field (← field challenge "config") "active_tracks") trackName
  require ((← field algorithm "details").get? "challenge_id" = some challengeName ∧ known = true)
    (.protocolData "compact selection reference has an invalid algorithm/track")
  let benchmarkId ← text (value "benchmark_id") "reference benchmark"
  let playerId ← text (value "player_id") "reference player"
  let activeIndex ← integer (value "active_index") "reference bundle index"
  let quality ← signed (value "quality") "reference quality" (-2 ^ 31)
  require (quality < 2 ^ 31) (.protocolData "reference quality exceeds int32")
  let parameters ← field row "hyperparameters"
  require (isParameters (some parameters) = true)
    (.protocolData "compact reference hyperparameters are invalid")
  let challengeId ← text (value "challenge_id") "reference challenge"
  let algorithmId ← text (value "algorithm_id") "reference algorithm"
  match trackName with
  | .str trackId =>
      return ((algorithmId, trackId),
        { benchmarkId, activeIndex, playerId, challengeId, algorithmId, trackId, quality },
        parameters)
  | _ => throw (.malformed "reference track")

/-- The references of a compact capture; one for each algorithm and track. -/
def readReferences (codes challenges : Table String Json) (rows : List Json) :
    Result (Table (String × String) (Bundle × Json)) :=
  rows.foldlM (fun best row => do
    let reference ← readReference codes challenges row
    require (reference.1 ∉ best)
      (.protocolData "compact selection reference has an invalid scope")
    return AList.insert reference.1 reference.2 best) ∅

/-- The references are no worse than the pool's own bundles. -/
def checkReference (precommits : Table String Json)
    (best : Table (String × String) (Bundle × Json)) (bundle : Bundle) : Result Unit := do
  let reference ← fetch (best.lookup (bundle.algorithmId, bundle.trackId))
    (.protocolData "compact selection summary omits an active pool reference")
  require (EqualBundle.precedes reference.1 bundle)
    (.protocolData "compact reference is worse than an available pool bundle")
  match precommits.lookup reference.1.benchmarkId with
  | none => return
  | some precommit =>
      require ((← field precommit "details").get? "hyperparameters" = some reference.2)
        (.protocolData "compact pool reference parameters differ from its precommit")

/-- The digests under which a compact capture is known. -/
def checkSources (observation : Json) : Result Unit := do
  let version := (observation.get? "source_identity_version").getD (.int 1)
  require (version = .int 1 ∨ version = .int 2)
    (.protocolData "unsupported compact source identity version")
  let invalid := Error.protocolData "compact capture has an invalid source digest"
  let digests ← field observation "source_semantic_digests"
  require (digests.truthy = true)
    (.protocolData "compact capture needs its validated network digest")
  let digests ← iterate digests
  require (digests.all isDigest = true) invalid
  let compatible ← iterate ((observation.get? "compatible_projection_digests").getD (.arr []))
  require (compatible.all isDigest = true) invalid
  let digest ← field observation "source_semantic_digest"
  require (isDigest digest = true) invalid
  require (digest ∈ digests) (.protocolData "compact canonical source identity is missing")

/-- The pool's own feed; the records of a pending one are checked here only. -/
def checkPoolFeed (observation : Json) (player : String) (isActive : Bool) : Result Unit := do
  let players ← items (← field observation "players")
  let expected := if isActive then [player] else []
  require (players.map (·.1) ⊆ expected ∧ expected ⊆ players.map (·.1))
    (.protocolData "compact capture contains an unexpected player feed")
  let feed ← fetch ((players.lookup player).or (observation.get? "pool_pending"))
    (.malformed "pool_pending")
  let precommits ← index (some (← field feed "precommits")) "benchmark_id" "compact pool precommits"
  checkOwner player precommits
  let _ ← index (some (← field feed "benchmarks")) "id" "compact pool benchmarks"
  let _ ← index (some (← field feed "proofs")) "benchmark_id" "compact pool proofs"
  let _ ← index (some (← field feed "frauds")) "benchmark_id" "compact pool frauds"

def readActivity (value : Json) : Result Bool :=
  match value with
  | .bool b => .ok b
  | _ => .error (.protocolData "compact pool activity must be explicit")

/-- Both reads show one block; the result is its header. -/
def readBoundary (observation : Json) : Result Json := do
  let start ← field (← field observation "start") "block"
  let stop ← field (← field observation "end") "block"
  require (∀ key ∈ ["id", "details", "config"],
      (start.get? key).isSome ∧ start.get? key = stop.get? key)
    (.protocolData "compact observation crossed a block boundary")
  return start

def readActive (observation : Json) (isActive : Bool) : Result (List Json) := do
  let active ← array (some (← field observation "pool_active_benchmark_ids"))
    "compact active benchmarks"
  require (active.all hashable = true) (.malformed "unhashable benchmark")
  require active.Nodup (.protocolData "compact active benchmarks must be unique")
  require (active = [] ∨ isActive = true)
    (.protocolData "inactive pool has active benchmark credit")
  return active

/-- What was kept can be part of the block as it was. -/
def checkOriginal (start : Json) (codes challenges active : ℕ) (isActive : Bool) :
    Result Unit := do
  let original ← field (← field start "details") "num_active"
  require ((codes : ℤ) = (← number (← field original "code")) ∧
      (challenges : ℤ) = (← number (← field original "challenge")) ∧
      (active : ℤ) ≤ (← number (← field original "benchmark")) ∧
      (isActive.toNat : ℤ) ≤ (← number (← field original "opow")))
    (.protocolData "compact scope contradicts the original block counts")

/-- Scoped replay checks pool bundles against the pool's authoritative qualifier totals; it
does not pretend to recreate the discarded network. -/
def validateCompact (observation : Json) : Result Snapshot := do
  checkSources observation
  let player ← text (some (← field observation "pool_player_id")) "compact pool player"
  let isActive ← readActivity (← field observation "pool_active")
  let start ← readBoundary observation
  let codes ← index (some (← field (← field observation "algorithms") "codes")) "id" "compact codes"
  let challenges ← index (some (← field (← field observation "challenges") "challenges")) "id"
    "compact challenges"
  checkPoolFeed observation player isActive
  let active ← readActive observation isActive
  checkOriginal start codes.keys.length challenges.keys.length active.length isActive
  let totals ← (rowsOf codes).mapM fun code => poolCounts player code.2
  let view ← compactView observation player isActive codes.keys challenges.keys active
    totals.flatten
  let snapshot ← validateBlock view none
  let references ← iterate (← field observation "selection_references")
  let best ← readReferences codes challenges references
  snapshot.bundles.forM (checkReference snapshot.precommits best)
  return { snapshot with selectionReferences := some best }

/-- The validator of the encoding that the observation declares. -/
def validateFormat (observation : Json) : Result Snapshot := do
  let _ ← items observation
  if observation.get? "format" = some (.str "pool-network-v1") then
    validateCompact observation
  else if observation.get? "format" = some (.str "pool-scoped-v2") then
    validateScoped observation
  else validateBlock observation none

/-- Reject mixed blocks, missing active benchmarks, and mismatched totals. -/
def validateSnapshot (observation : Json) : Result Snapshot :=
  match validateFormat observation with
  | .error (.malformed detail) =>
      .error (.protocolData ("missing or malformed protocol field: " ++ detail))
  | other => other

end Protocol

end TigPool
