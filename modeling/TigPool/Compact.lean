/-
# `TigPool.Compact` — compact captures

`compactObservation` validates the whole network once and then keeps what the pool's
accounting needs: the header, the active algorithms with the pool's own qualifiers, the
challenges, the pool's feed, and the best reference of every algorithm and track with its
parameters.  `validateCompact` of `TigPool.Protocol` reads what is kept.

Digests are those of canonical texts; since a value stands for its canonical text, they are
taken of values, by a function that stands for SHA-256.
-/
import TigPool.Selection

namespace TigPool

open Basis

namespace Protocol

/-! ## Replayable forms -/

/-- Is the list at this path one of the block's lists of active ids? -/
def isIdPath (path : List String) : Bool :=
  match path.reverse with
  | _ :: kind :: outer :: _ => kind = "active_ids" ∧ outer = "data"
  | _ => false

def isText : Json → Bool
  | .str _ => true
  | _ => false

def textOf : Json → String
  | .str s => s
  | _ => ""

section

variable (sha256 : Json → String)

/-- A list as it is replayed: records in the order of their digests, active ids sorted. -/
def canonicalItems (path : List String) (items : List Json) : List Json :=
  if items.all Json.isObject then items.insertionSort fun a b => sha256 a ≤ sha256 b
  else if items.all isText ∧ isIdPath path then
    items.insertionSort fun a b => textOf a ≤ textOf b
  else items

mutual

/-- `canonical_observation` -/
def canonicalAt (path : List String) : Json → Json
  | .obj members => .obj (canonicalMembers path members)
  | .arr items => .arr (canonicalItems sha256 path items)
  | value => value

def canonicalMembers (path : List String) : List (String × Json) → List (String × Json)
  | [] => []
  | (key, member) :: members =>
      (key, canonicalAt (path ++ [key]) member) :: canonicalMembers path members

end

/-- The replayable form of an observation: record lists in digest order. -/
def canonicalObservation (observation : Json) : Json :=
  canonicalAt sha256 [] observation

end

/-! ## Digests of blocks -/

def Bundle.toJson (bundle : Bundle) : Json :=
  .obj [("active_index", .int bundle.activeIndex), ("algorithm_id", .str bundle.algorithmId),
    ("benchmark_id", .str bundle.benchmarkId), ("challenge_id", .str bundle.challengeId),
    ("player_id", .str bundle.playerId), ("quality", .int bundle.quality),
    ("track_id", .str bundle.trackId)]

/-- The rows of a table by name, as a JSON object. -/
def tableJson (t : Table String Json) : Json :=
  .obj ((rowsOf t).insertionSort fun a b => a.1 ≤ b.1)

/-- The qualities of each benchmark's bundles, in their order. -/
def scoresOf (bundles : List Bundle) : Json :=
  let ids := ((bundles.map (·.benchmarkId)).dedup).insertionSort (· ≤ ·)
  .obj (ids.map fun id =>
    (id, .arr ((bundles.filter (·.benchmarkId = id)).map fun bundle => .int bundle.quality)))

/-- The counts of a snapshot, each with its group, in order. -/
def qualifierRows (qualifiers : Table Group ℕ) : List Json :=
  let rows := qualifiers.entries.map fun e => ([e.1.1, e.1.2.1, e.1.2.2.1, e.1.2.2.2], e.2)
  (rows.insertionSort fun a b => a.1 ≤ b.1).map fun row => .arr (row.1.map .str ++ [.int row.2])

/-- A reference, with its parameters. -/
def referenceJson (bundle : Bundle) (parameters : Json) : Json :=
  .obj [("bundle", Bundle.toJson bundle), ("hyperparameters", parameters)]

/-- Rows by algorithm and track, in order. -/
def pairRows {α : Type} (t : Table (String × String) α) : List ((String × String) × α) :=
  (t.entries.map fun e => (e.1, e.2)).insertionSort fun a b => toLex a.1 ≤ toLex b.1

/-- The pool's feed, active or pending. -/
def poolFeed (observation : Json) (player : String) : Option Json :=
  (((observation.get? "players").bind (·.get? player)).or (observation.get? "pool_pending"))

section

variable (sha256 : Json → String)

/-- The part of the digest that is about the pool. -/
def poolIdentity (observation : Json) : List (String × Json) :=
  match observation.get? "pool_player_id" with
  | some player =>
      if player.truthy then
        let feed := match player with
          | .str name => poolFeed observation name
          | _ => observation.get? "pool_pending"
        [("pool_feed", feed.getD .null), ("pool_player_id", player)]
      else []
  | none => []

/-- The references that a compact capture kept, and what it was made from. -/
def referenceIdentity (snapshot : Snapshot) (observation : Json) : List (String × Json) :=
  match snapshot.selectionReferences with
  | some kept =>
      [("selection_references", .arr ((pairRows kept).map fun row => referenceJson row.2.1 row.2.2)),
        ("source_semantic_digest", (observation.get? "source_semantic_digest").getD .null)]
  | none => []

/-- `observation["start"]["block"]["config"]` -/
def blockConfig (observation : Json) : Json :=
  (((observation.get? "start").bind (·.get? "block")).bind (·.get? "config")).getD .null

/-- `_semantic`: the identity of a block is that of everything that is accounted for. -/
def semantic (snapshot : Snapshot) (observation : Json) : String :=
  let config := if observation.get? "source_identity_version" = some (.int 2) then
      canonicalObservation sha256 (blockConfig observation)
    else blockConfig observation
  let data : List (String × Json) :=
    [("algorithms", tableJson snapshot.algorithms), ("block_id", .str snapshot.blockId),
      ("challenges", tableJson snapshot.challenges), ("config", config),
      ("height", .int snapshot.height)] ++ poolIdentity observation ++
    [("precommits", tableJson snapshot.precommits), ("previous", .str snapshot.previousBlockId),
      ("qualifiers", .arr (qualifierRows snapshot.qualifiers)), ("round", .int snapshot.round),
      ("scores", scoresOf snapshot.bundles)] ++ referenceIdentity snapshot observation ++
    [("timestamp", .int snapshot.timestamp)]
  sha256 (.obj data)

end

/-! ## Compaction -/

/-- What is kept of an algorithm: the pool's own qualifiers. -/
def keptCode (player : String) (algorithm : String × Json) : Result Json := do
  let blockData ← field algorithm.2 "block_data"
  let tracks ← items (← field blockData "num_qualifiers_by_track_by_player")
  let details ← field algorithm.2 "details"
  let state ← field algorithm.2 "state"
  let adoption ← field blockData "adoption"
  let kept := tracks.filterMap fun track =>
    (track.2.get? player).map fun count => (track.1, Json.obj [(player, count)])
  return .obj [("block_data", .obj [("adoption", adoption),
      ("num_qualifiers_by_track_by_player", .obj kept)]),
    ("details", details), ("id", .str algorithm.1), ("state", state)]

def keptChallenge (challenge : String × Json) : Result Json := do
  let config ← field challenge.2 "config"
  let state ← field challenge.2 "state"
  return .obj [("config", config), ("id", .str challenge.1), ("state", state)]

/-- The best reference of an algorithm and track, with the parameters of its precommit. -/
def keptReference (snapshot : Snapshot) (reference : (String × String) × Bundle) :
    Result Json := do
  let precommit ← fetch (snapshot.precommits.lookup reference.2.benchmarkId)
    (.malformed "precommits")
  let parameters ← field (← field precommit "details") "hyperparameters"
  return referenceJson reference.2 parameters

/-- The block of one of the two reads, without its data. -/
def keptBlock (observation : Json) (side : String) : Result Json := do
  let block ← field (← field observation side) "block"
  return .obj [("block", .obj [("config", ← field block "config"),
    ("details", ← field block "details"), ("id", ← field block "id")])]

/-- Do the rows belong to the player? -/
def playerRows (player : String) (rows : List Json) : Result (List Json) :=
  rows.filterM fun row => do
    let owner ← field row "player_id"
    return decide (owner = .str player)

/-- How a compact capture identifies its source: by its own header, or by one whose record
lists are in digest order. -/
inductive IdentityVersion where
  | one
  | two
deriving DecidableEq

/-- A compact capture, but for the digests of other projections. -/
def compactOf (observation feed : Json) (player : String) (snapshot : Snapshot)
    (digests : List String) (digest : String) : Result Json := do
  let codes ← ((rowsOf snapshot.algorithms).insertionSort fun a b => a.1 ≤ b.1).mapM
    (keptCode player)
  let challenges ← ((rowsOf snapshot.challenges).insertionSort fun a b => a.1 ≤ b.1).mapM
    keptChallenge
  let best ← (pairRows (references snapshot).values).mapM (keptReference snapshot)
  let start ← keptBlock observation "start"
  let stop ← keptBlock observation "end"
  let isActive := ((observation.get? "players").bind (·.get? player)).isSome
  let binaries := ((observation.get? "algorithms").bind (·.get? "binarys")).getD (.arr [])
  let opow ← playerRows player
    (← array (some (← field (← field observation "opow") "opow")) "opow")
  let owned := ((snapshot.precommits.filter fun _ row => ownerOf row = player).keys).insertionSort
    (· ≤ ·)
  let members : List (String × Json) :=
    [("algorithms", .obj [("binarys", binaries), ("codes", .arr codes)]),
      ("challenges", .obj [("challenges", .arr challenges)]), ("end", stop),
      ("format", .str "pool-network-v1"), ("opow", .obj [("opow", .arr opow)]),
      ("players", .obj (if isActive then [(player, feed)] else [])),
      ("pool_active", .bool isActive), ("pool_active_benchmark_ids", .arr (owned.map .str))] ++
    (if isActive then [] else [("pool_pending", feed)]) ++
    [("pool_player_id", .str player), ("selection_references", .arr best),
      ("source_semantic_digest", .str digest),
      ("source_semantic_digests", .arr (digests.map .str)), ("start", start)]
  return .obj members

/-- Digests in order, each once. -/
def digestSet (digests : List String) : List String :=
  digests.dedup.insertionSort (· ≤ ·)

section

variable (sha256 : Json → String)

/-- The observation with the pool's feed, and no other, in its replayable form. -/
def canonicalFeed (observation feed : Json) (player : String) : Json :=
  if ((observation.get? "players").bind (·.get? player)).isSome then
    observation.set "players" (.obj [(player, canonicalObservation sha256 feed)])
  else observation.set "pool_pending" (canonicalObservation sha256 feed)

/-- The projections under which a capture of the second version would have been identified
before: with the header as it is, and in its replayable form. -/
def compatible (result config : Json) (v1Digest digest : String) : Result (List String) := do
  let old := result.set "source_semantic_digest" (.str v1Digest)
  let first := semantic sha256 (← validateCompact old) old
  let old := setAt (setAt old ["start", "block", "config"] config) ["end", "block", "config"] config
  let old := old.set "source_semantic_digest" (.str digest)
  let second := semantic sha256 (← validateCompact old) old
  return digestSet [first, second]

/-- The compact capture of a full observation. -/
def compactFull (observation : Json) (version : IdentityVersion) : Result Json := do
  let player ← text (observation.get? "pool_player_id") "compact pool player"
  let snapshot ← validateSnapshot observation
  let feed ← fetch ((poolFeed observation player).filter (·.isObject))
    (.protocolData "compact capture needs the complete pool feed")
  let canonical := canonicalFeed sha256 observation feed player
  let config := canonicalObservation sha256 (blockConfig observation)
  let v1Digest := semantic sha256 snapshot canonical
  let digest := match version with
    | .one => v1Digest
    | .two => semantic sha256 snapshot (setAt canonical ["start", "block", "config"] config)
  let digests := digestSet [semantic sha256 snapshot observation, v1Digest, digest]
  let result ← compactOf observation (canonicalObservation sha256 feed) player snapshot digests
    digest
  match version with
  | .one => do
      let _ ← validateCompact result
      return result
  | .two => do
      let digests ← compatible sha256 result config v1Digest digest
      let result := (result.set "source_identity_version" (.int 2)).set
        "compatible_projection_digests" (.arr (digests.map .str))
      let _ ← validateCompact result
      return result

/-- Keep what the pool's accounting needs of an observation. -/
def compactObservation (observation : Json) (version : IdentityVersion) : Result Json := do
  let _ ← items observation
  if observation.get? "format" = some (.str "pool-network-v1") then
    let _ ← validateCompact observation
    return observation
  else if observation.get? "format" = some (.str "pool-scoped-v2") then
    let _ ← validateSnapshot observation
    return canonicalObservation sha256 observation
  else compactFull sha256 observation version

end

end Protocol

end TigPool
