/-
# `TigPool.Selection` — choosing work for an offer

`choose` works over one validated snapshot.  It keeps the challenges of the offer's
resource family that have an executable algorithm, takes the one in which the pool has the
fewest qualifiers, its most adopted algorithm, and for every track the parameters of the
best reference.  Ties are resolved at random; `pick` is the sequence of random choices.

An offer that finds no work is not an error here: where the service raises
`NoCompatibleWork`, `choose` returns `none`.  Every other failure is one.
-/
import TigPool.Protocol
import TigPool.WorkRequests

namespace TigPool

open Basis

namespace Protocol

/-- A whole-network reference that was captured apart from the credited block. -/
structure ExternalReference where
  captureId : String
  height : ℕ
  timestamp : ℕ
  digest : String
  hyperparameters : Table (String × String) Json

structure ReferenceIndex where
  blockId : String
  values : Table (String × String) Bundle
  external : Option ExternalReference := none

/-- Index once per snapshot; equal scores use stable benchmark and array order. -/
def references (snapshot : Snapshot) : ReferenceIndex :=
  match snapshot.selectionReferences with
  | some kept => ⟨snapshot.blockId, kept.mapVals fun _ value => value.1, none⟩
  | none =>
      let best (values : Table (String × String) Bundle) (bundle : Bundle) :=
        let key := (bundle.algorithmId, bundle.trackId)
        if (values.lookup key).all fun previous => ¬ EqualBundle.precedes previous bundle then
          AList.insert key bundle values
        else values
      ⟨snapshot.blockId, snapshot.bundles.foldl best ∅, none⟩

/-! ## Candidates -/

/-- Exact nonnegative units, written in decimal digits. -/
def precise (value : Json) (label : String) : Result ℕ :=
  match value with
  | .str s => do
      require (isDigits value = true)
        (.protocolData (label ++ ": expected exact nonnegative units"))
      return s.toList.foldl (fun n c => 10 * n + (c.toNat - '0'.toNat)) 0
  | _ => .error (.protocolData (label ++ ": expected exact nonnegative units"))

/-- Is the algorithm one that can be run for the challenge?  Missing data about one that
could be is an error. -/
def isUsable (snapshot : Snapshot) (binaries : Table String Json) (challengeId : String)
    (algorithm : String × Json) : Result Bool := do
  if (← field (← field algorithm.2 "details") "challenge_id") ≠ .str challengeId then
    return false
  let state ← field algorithm.2 "state"
  let banned ← match ← field state "banned" with
    | .bool b => pure b
    | _ => throw (.protocolData "algorithm ban status is unknown")
  if banned then
    return false
  let activation ← field state "round_active"
  if activation = .null then
    return false
  if snapshot.round < (← integer (some activation) "algorithm activation" 1) then
    return false
  let binary ← fetch (binaries.lookup algorithm.1)
    (.protocolData "active algorithm is missing binary metadata")
  let details ← field binary "details"
  if (← field details "compile_success") ≠ .bool true then
    return false
  let confirmed ← integer ((← field binary "state").get? "block_confirmed") "binary confirmation"
  require (confirmed ≤ snapshot.height)
    (.protocolData "binary metadata comes from after this snapshot")
  let _ ← text (details.get? "download_url") "algorithm binary URL"
  return true

def resourceName : Resource → String
  | .CPU => "CPU"
  | .GPU => "GPU"

/-- The family that a challenge needs. -/
def challengeFamily (config : Json) : Result Resource := do
  match ← field config "type" with
  | .str "cpu" => return .CPU
  | .str "gpu" => return .GPU
  | _ => throw (.protocolData "unknown challenge resource family")

/-- The algorithms that can be run for a challenge of the family, if it takes work. -/
def usableAlgorithms (snapshot : Snapshot) (binaries : Table String Json) (resource : Resource)
    (challenge : String × Json) : Result (List String) := do
  let config ← field challenge.2 "config"
  if (← challengeFamily config) ≠ resource then
    return []
  let activation ← integer ((← field challenge.2 "state").get? "round_active")
    "challenge activation" 1
  if snapshot.round < activation then
    return []
  if (← field config "active_tracks").truthy = false then
    return []
  let usable ← (rowsOf snapshot.algorithms).filterM (isUsable snapshot binaries challenge.1)
  return usable.map (·.1)

structure Candidate where
  challengeId : String
  algorithms : List String

/-- The challenges that fit, in the order of their names. -/
def candidates (snapshot : Snapshot) (binaries : Table String Json) (resource : Resource) :
    Result (List Candidate) := do
  let rows := (rowsOf snapshot.challenges).insertionSort fun a b => a.1 ≤ b.1
  let usable ← rows.mapM fun challenge => do
    let algorithms ← usableAlgorithms snapshot binaries resource challenge
    return Candidate.mk challenge.1 algorithms
  return usable.filter (·.algorithms ≠ [])

/-- How many bundles of the pool qualify in a challenge. -/
def poolCount (snapshot : Snapshot) (playerId challengeId : String) : ℕ :=
  snapshot.qualifiers.total fun group count =>
    if group.1 = playerId ∧ group.2.1 = challengeId then count else 0

/-! ## Tracks -/

/-- Where the parameters of the references come from: the snapshot itself, or a
whole-network capture that is neither newer than the snapshot nor too old. -/
def checkIndex (snapshot : Snapshot) (index : ReferenceIndex) (now maxAge : ℕ) : Result Unit :=
  match index.external with
  | none =>
      require (index.blockId = snapshot.blockId)
        (.protocolData "benchmark reference index belongs to another block")
  | some external => do
      require (1 ≤ maxAge) (.protocolData "maximum reference age: expected an integer")
      require (external.height ≤ snapshot.height)
        (.protocolData "network reference comes from after the current snapshot")
      require (now ≤ maxAge + external.timestamp) (.protocolData "network reference is stale")
      require (external.digest ≠ "")
        (.protocolData "network reference lacks its parameters or identity")

/-- The parameters of a reference. -/
def parametersOf (snapshot : Snapshot) (index : ReferenceIndex) (key : String × String)
    (reference : Bundle) : Result Json :=
  match index.external, snapshot.selectionReferences with
  | some external, _ => fetch (external.hyperparameters.lookup key) (.malformed "hyperparameters")
  | none, some kept => do
      let value ← fetch (kept.lookup key) (.malformed "selection_references")
      return value.2
  | none, none => do
      let precommit ← fetch (snapshot.precommits.lookup reference.benchmarkId)
        (.malformed "precommits")
      field (← field precommit "details") "hyperparameters"

structure Track where
  trackId : String
  bundles : ℕ
  parameters : Json
  evidence : Json

/-- One track of the proposal; a track without a reference leaves the parameters to TIG. -/
def proposeTrack (snapshot : Snapshot) (index : ReferenceIndex) (algorithmId : String)
    (least : ℕ) (track : String × Json) : Result Track := do
  let _ ← items track.2
  let bundles ← integer (some ((track.2.get? "min_num_bundles").getD (.int least)))
    "track minimum bundles" 1
  match index.values.lookup (algorithmId, track.1) with
  | none =>
      return ⟨track.1, bundles, .null,
        .obj [("reason", .str "complete-snapshot-has-no-reference")]⟩
  | some reference =>
      let parameters ← parametersOf snapshot index (algorithmId, track.1) reference
      return ⟨track.1, bundles, parameters,
        .obj [("active_index", .int reference.activeIndex),
          ("benchmark_id", .str reference.benchmarkId), ("quality", .int reference.quality)]⟩

/-- The settings of a track, as they are proposed. -/
def Track.settings (fuel : ℕ) (track : Track) : String × Json :=
  (track.trackId, .obj [("fuel_budget", .int fuel), ("hyperparameters", track.parameters),
    ("num_bundles", .int track.bundles)])

/-! ## The choice -/

/-- What a choice is made from, beside the offer. -/
structure SelectionData where
  snapshot : Snapshot
  /-- `observation["algorithms"]["binarys"]` -/
  binaries : Option Json
  playerId : String
  now : ℕ
  maxAge : ℕ
  fuelBudget : Option Json := none
  /-- The references of the snapshot itself, unless others are given. -/
  index : Option ReferenceIndex := none
  referenceMaxAge : ℕ

/-- The index that references are taken from. -/
def SelectionData.reference (data : SelectionData) : ReferenceIndex :=
  data.index.getD (references data.snapshot)

/-- The fuel that is proposed: what was configured, or the most that is allowed. -/
def fuelOf (budget : Option Json) (config : Json) : Result ℕ := do
  let most ← integer (config.get? "max_fuel_budget") "maximum fuel budget"
  let fuel ← integer (some (budget.getD (.int most))) "fuel budget"
  require (fuel ≤ most) (.protocolData "configured fuel budget exceeds the protocol maximum")
  return fuel

/-- What is proposed for a challenge and an algorithm of it. -/
def propose (data : SelectionData) (binaries : Table String Json) (offer : Offer)
    (counts : List (String × ℕ)) (challengeTies : List String) (challengeId : String)
    (adoptions : List (String × ℕ)) (algorithmTies : List String) (algorithmId : String) :
    Result WorkRequests.Selection := do
  let snapshot := data.snapshot
  let challenge ← fetch (snapshot.challenges.lookup challengeId) (.malformed "challenges")
  let algorithm ← fetch (snapshot.algorithms.lookup algorithmId) (.malformed "algorithms")
  let config ← field challenge "config"
  let fuel ← fuelOf data.fuelBudget config
  let least ← integer (config.get? "min_num_bundles") "minimum bundles" 1
  let best := data.reference
  checkIndex snapshot best data.now data.referenceMaxAge
  let tracks ← items (← field config "active_tracks")
  let tracks ← (tracks.insertionSort fun a b => a.1 ≤ b.1).mapM
    (proposeTrack snapshot best algorithmId least)
  let (collateral, _) ← collateral (tracks.map fun track => .int track.bundles) .one
  let base ← precise (← field config "base_fee") "base fee"
  let each ← precise (← field config "per_nonce_fee") "per-bundle fee"
  let name ← text ((← field algorithm "details").get? "name") "algorithm archive name"
  let binary ← fetch (binaries.lookup algorithmId) (.malformed "binaries")
  let external := match best.external with
    | none => []
    | some external => [("reference_capture", Json.obj [("block_id", .str best.blockId),
        ("digest", .str external.digest), ("height", .int external.height),
        ("id", .str external.captureId), ("timestamp", .int external.timestamp)])]
  let evidence : List (String × Json) :=
    [("adoption_units", .obj (adoptions.map fun a => (a.1, .str (toString a.2)))),
      ("algorithm_name", .str name), ("algorithm_ties", .arr (algorithmTies.map .str)),
      ("binary", binary), ("block_id", .str snapshot.blockId),
      ("challenge_ties", .arr (challengeTies.map .str)),
      ("compute_type", .str offer.computeType), ("height", .int snapshot.height),
      ("hyperparameter_policy", .str "copy-best-active-bundle-v2"),
      ("pool_counts", .obj (counts.map fun c => (c.1, .int c.2)))] ++ external ++
    [("references", .obj (tracks.map fun track => (track.trackId, track.evidence))),
      ("resource", .str (resourceName offer.resource)), ("round", .int snapshot.round),
      ("rule", .str "least-qualifiers-overall-adoption-reference-hyperparameters-v3"),
      ("selected_algorithm", .str algorithmId), ("selected_challenge", .str challengeId)]
  return { creationRound := snapshot.round, evidence := .obj evidence,
           baseCollateral := collateral,
           payload := WorkRequests.proposal data.playerId snapshot.blockId challengeId algorithmId
             offer.computeType (.obj (tracks.map (Track.settings fuel))),
           -- The deployed contract charges by bundles, whatever the name of the fee.
           maxSubmissionFee := base + each * (tracks.map (·.bundles)).foldr max 0 }

/-- The names whose count is the best. -/
def tiesAt (best : ℕ) (counts : List (String × ℕ)) : List String :=
  (counts.filter fun c => c.2 = best).map (·.1)

/-- `_choose` -/
def chooseFrom (data : SelectionData) (pick : ℕ → List String → String) (offer : Offer) :
    Result (Option WorkRequests.Selection) := do
  let snapshot := data.snapshot
  require (snapshot.isScoped = false ∨ data.index.isSome = true)
    (.protocolData "a pool-scoped snapshot needs a whole-network reference for selection")
  require (1 ≤ data.maxAge) (.protocolData "maximum snapshot age: expected an integer")
  require (data.playerId ≠ "") (.protocolData "pool player ID: expected a nonempty string")
  require (snapshot.timestamp ≤ data.now + 5 ∧ data.now ≤ data.maxAge + snapshot.timestamp)
    (.protocolData "current snapshot is stale or from the future")
  let binaries ← index data.binaries "algorithm_id" "algorithm binaries"
  let found ← candidates snapshot binaries offer.resource
  if found = [] then
    return none
  let counts := found.map fun c => (c.challengeId, poolCount snapshot data.playerId c.challengeId)
  let challengeTies := tiesAt ((counts.map (·.2)).foldr min (counts.headD ("", 0)).2) counts
  let challengeId := pick 0 challengeTies
  let candidate ← fetch (found.find? (·.challengeId = challengeId)) (.malformed "challenge")
  let adoptions ← (candidate.algorithms.insertionSort (· ≤ ·)).mapM fun algorithmId => do
    let algorithm ← fetch (snapshot.algorithms.lookup algorithmId) (.malformed "algorithms")
    let adoption ← precise (← field (← field algorithm "block_data") "adoption")
      "algorithm adoption"
    return (algorithmId, adoption)
  let algorithmTies := tiesAt ((adoptions.map (·.2)).foldr max 0) adoptions
  let selection ← propose data binaries offer counts challengeTies challengeId adoptions
    algorithmTies (pick 1 algorithmTies)
  return some selection

/-- A whole-benchmark selection for the offer; `none` if no challenge fits. -/
def choose (data : SelectionData) (pick : ℕ → List String → String) (offer : Offer) :
    Result (Option WorkRequests.Selection) :=
  match chooseFrom data pick offer with
  | .error (.malformed detail) =>
      .error (.protocolData ("incomplete selection data: " ++ detail))
  | other => other

/-! ## What is chosen -/

theorem propose_spec {data : SelectionData} {binaries : Table String Json} {offer : Offer}
    {counts adoptions : List (String × ℕ)} {challengeTies algorithmTies : List String}
    {challengeId algorithmId : String} {selection : WorkRequests.Selection}
    (h : propose data binaries offer counts challengeTies challengeId adoptions algorithmTies
      algorithmId = .ok selection) :
    selection.creationRound = data.snapshot.round ∧
      selection.evidence.get? "block_id" = some (.str data.snapshot.blockId) ∧
      ∃ playerId challengeId algorithmId computeType tracks, selection.payload
        = WorkRequests.proposal playerId data.snapshot.blockId challengeId algorithmId computeType
            tracks := by
  simp only [propose, bind_eq_ok, fetch_eq_ok, pure_eq_ok] at h
  obtain ⟨challenge, -, algorithm, -, config, -, fuel, -, least, -, -, -, active, -, members, -,
    tracks, -, price, -, base, -, base', -, each, -, each', -, details, -, name, -, binary, -,
    rfl⟩ := h
  exact ⟨rfl, rfl, _, _, _, _, _, rfl⟩

theorem chooseFrom_of_choose {data : SelectionData} {pick : ℕ → List String → String}
    {offer : Offer} {out : Option WorkRequests.Selection} :
    choose data pick offer = .ok out ↔ chooseFrom data pick offer = .ok out := by
  unfold choose
  cases hfrom : chooseFrom data pick offer with
  | ok value => rfl
  | error e => cases e <;> exact ⟨nofun, nofun⟩

/-- A choice is made in the round of the snapshot, notes its block and is a proposal made on
it. -/
theorem choose_chooses (data : SelectionData) (pick : ℕ → List String → String) {db : Db}
    (hround : ∀ block, db.observation.blocks.lookup data.snapshot.blockId = some block →
      data.snapshot.round = block.round) :
    WorkRequests.Chooses db data.snapshot.blockId fun request =>
      choose data pick request.offer := by
  intro request selection h
  have hchoose := chooseFrom_of_choose.mp h
  simp only [chooseFrom, bind_eq_ok, require_eq_ok, exists_const] at hchoose
  obtain ⟨-, -, -, -, binaries, -, found, -, hchoose⟩ := hchoose
  split at hchoose
  · cases hchoose
  · simp only [bind_eq_ok, pure_eq_ok, Option.some.injEq] at hchoose
    obtain ⟨candidate, -, adoptions, -, _, hpropose, rfl⟩ := hchoose
    obtain ⟨hcreation, hnoted⟩ := propose_spec hpropose
    exact ⟨fun block hblock => hcreation.trans (hround block hblock), hnoted⟩

end Protocol

end TigPool
