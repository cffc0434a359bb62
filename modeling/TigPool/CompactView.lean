/-
# `TigPool.CompactView` — a compact capture says what its source said of the pool

`Reads` says what `validateBlock` reads on its way to a snapshot.  A compact capture is
validated as a block of its own, in which the pool is the only player; `Compacted` is what
its snapshot then has to do with that of the observation it was made from: the same block,
the pool's bundles, qualifiers and precommits, algorithms and challenges as far as
accounting and selection read them, and the best references with their parameters.
-/
import TigPool.Compact
import TigPool.Choice
import TigPool.Reading

namespace TigPool

open Basis

namespace Protocol

/-! ## Records -/

/-- A row of a feed. -/
def FeedRow (feed : Json) (name key identity : String) (row : Json) : Prop :=
  ∃ rows, feed.get? name = some (.arr rows) ∧ IsRow rows key identity row

theorem feedRow_iff {feed value : Json} {name key label : String} {rows : Table String Json}
    (hfield : field feed name = .ok value) (hindex : index (some value) key label = .ok rows)
    {identity : String} {row : Json} :
    FeedRow feed name key identity row ↔ rows.lookup identity = some row := by
  obtain ⟨listed, hlisted⟩ := index_eq_ok hindex
  obtain rfl := Option.some.inj hlisted
  rw [index_lookup hindex]
  constructor
  · rintro ⟨rows', hrows', hrow⟩
    cases (field_eq_ok.mp hfield).symm.trans hrows'
    exact hrow
  · intro hrow
    exact ⟨listed, field_eq_ok.mp hfield, hrow⟩

theorem joinRows_lookup {target rows joined : Table String Json} {name : String}
    (h : joinRows target rows name = .ok joined) {identity : String} {row : Json} :
    joined.lookup identity = some row ↔
      target.lookup identity = some row ∨ rows.lookup identity = some row := by
  simp only [joinRows, bind_eq_ok, require_eq_ok, exists_const, pure_eq_ok] at h
  obtain ⟨hnew, rfl⟩ := h
  rw [← Option.mem_def, AList.mem_lookup_union]
  refine or_congr_right (and_iff_right_of_imp fun hrow => hnew identity ?_)
  exact AList.mem_keys.mp (AList.lookup_isSome.mp (Option.isSome_iff_exists.mpr ⟨row, hrow⟩))

/-- The rows of the precommits of a feed belong to its player. -/
theorem checkOwner_owner {playerId identity : String} {rows : Table String Json} {u : Unit}
    {row : Json} (h : checkOwner playerId rows = .ok u) (hrow : rows.lookup identity = some row) :
    ownerOf row = playerId := by
  have hmem : row ∈ rows.entries.map fun e => e.2 :=
    List.mem_map.mpr ⟨⟨identity, row⟩, Table.mem_entries_iff.mpr hrow, rfl⟩
  have hown := forM_eq_ok.mp h row hmem
  simp only [bind_eq_ok, require_eq_ok, field_eq_ok] at hown
  obtain ⟨settings, hsettings, owner, howner, rfl⟩ := hown
  rw [ownerOf, hsettings, Option.bind_some, howner]

/-- The records of feeds are the rows of their lists. -/
structure RecordsOf (feeds : List (String × Json)) (records : Records) : Prop where
  precommits : ∀ {identity row}, records.precommits.lookup identity = some row ↔
    ∃ feed ∈ feeds, FeedRow feed.2 "precommits" "benchmark_id" identity row
  benchmarks : ∀ {identity row}, records.benchmarks.lookup identity = some row ↔
    ∃ feed ∈ feeds, FeedRow feed.2 "benchmarks" "id" identity row
  proofs : ∀ {identity row}, records.proofs.lookup identity = some row ↔
    ∃ feed ∈ feeds, FeedRow feed.2 "proofs" "benchmark_id" identity row
  owners : ∀ feed ∈ feeds, ∀ {identity row},
    FeedRow feed.2 "precommits" "benchmark_id" identity row → ownerOf row = feed.1

theorem addFeed_records {done : List (String × Json)} {feed : String × Json}
    {before after : Records} (hbefore : RecordsOf done before)
    (h : addFeed before feed = .ok after) : RecordsOf (done ++ [feed]) after := by
  simp only [addFeed, bind_eq_ok, pure_eq_ok] at h
  obtain ⟨value, hvalue, rows, hrows, u, howner, precommits, hprecommits, value', hvalue', rows',
    hrows', benchmarks, hbenchmarks, value'', hvalue'', rows'', hrows'', proofs, hproofs, value₃, -,
    frauds, -, rfl⟩ := h
  have hsplit {P : String × Json → Prop} :
      (∃ f ∈ done ++ [feed], P f) ↔ (∃ f ∈ done, P f) ∨ P feed := by
    simp only [List.mem_append, List.mem_singleton, or_and_right, exists_or, exists_eq_left]
  refine ⟨?_, ?_, ?_, ?_⟩
  · intro identity row
    rw [joinRows_lookup hprecommits, hbefore.precommits, hsplit, feedRow_iff hvalue hrows]
  · intro identity row
    rw [joinRows_lookup hbenchmarks, hbefore.benchmarks, hsplit, feedRow_iff hvalue' hrows']
  · intro identity row
    rw [joinRows_lookup hproofs, hbefore.proofs, hsplit, feedRow_iff hvalue'' hrows'']
  · intro f hf identity row hrow
    rcases List.mem_append.mp hf with hdone | hnew
    · exact hbefore.owners f hdone hrow
    · obtain rfl := List.mem_singleton.mp hnew
      exact checkOwner_owner howner ((feedRow_iff hvalue hrows).mp hrow)

theorem foldlM_addFeed_records {feeds : List (String × Json)} {records : Records}
    (h : feeds.foldlM addFeed ⟨∅, ∅, ∅, []⟩ = .ok records) : RecordsOf feeds records := by
  have hfold : ∀ (rest done : List (String × Json)) (before : Records), RecordsOf done before →
      rest.foldlM addFeed before = .ok records → RecordsOf (done ++ rest) records := by
    intro rest
    induction rest with
    | nil =>
        intro done before hbefore h
        obtain rfl := pure_eq_ok.mp h
        rwa [List.append_nil]
    | cons feed rest ih =>
        intro done before hbefore h
        rw [List.foldlM_cons, bind_eq_ok] at h
        obtain ⟨after, hafter, h⟩ := h
        have hall := ih (done ++ [feed]) after (addFeed_records hbefore hafter) h
        rwa [List.append_assoc] at hall
  refine hfold feeds [] ⟨∅, ∅, ∅, []⟩ ⟨?_, ?_, ?_, nofun⟩ h
  all_goals
    intro identity row
    exact iff_of_false (by simp) (by simp)

/-! ## Headers -/

/-- `observation["start"]["block"]` -/
def startBlock (observation : Json) : Option Json :=
  member observation "start" "block"

/-- A header says what the block says. -/
structure HeaderOf (observation : Json) (header : Header) : Prop where
  blockId : (startBlock observation).bind (·.get? "id") = some (.str header.blockId)
  details : ∃ details, (startBlock observation).bind (·.get? "details") = some details ∧
    integer (details.get? "height") "block.height" = .ok header.height ∧
    integer (details.get? "round") "block.round" 1 = .ok header.round ∧
    integer (details.get? "timestamp") "block.timestamp" = .ok header.timestamp ∧
    text (details.get? "prev_block_id") "block.prev_block_id" = .ok header.previousBlockId
  active : ∃ active, (startBlock observation).bind (member · "data" "active_ids") = some active ∧
    active.get? "benchmark" = some (.arr (header.benchmark.map .str)) ∧
    active.get? "code" = some (.arr (header.code.map .str)) ∧
    active.get? "challenge" = some (.arr (header.challenge.map .str))
  distinct : header.benchmark.Nodup

theorem mapM_text {values : List Json} {label : String} {ids : List String}
    (h : values.mapM (fun value => text (some value) label) = .ok ids) : values = ids.map .str := by
  have h := mapM_eq_ok.mp h
  induction h with
  | nil => rfl
  | cons hx _ ih =>
      obtain ⟨hvalue, -⟩ := text_eq_ok.mp hx
      rw [List.map_cons, ← ih (mapM_eq_ok.mpr ‹_›), Option.some.inj hvalue]

theorem activeIds_spec {observation details active : Json} {scope : Option String} {kind : String}
    {ids : List String} (h : activeIds observation details active scope kind = .ok ids) :
    active.get? kind = some (.arr (ids.map .str)) ∧ ids.Nodup := by
  simp only [activeIds, bind_eq_ok, require_eq_ok, exists_const, pure_eq_ok, field_eq_ok] at h
  obtain ⟨value, hvalue, values, hvalues, ids', hids, _, _, _, _, hnodup, _, _, rfl⟩ := h
  obtain rfl := Option.some.inj (array_eq_ok.mp hvalues)
  rw [← mapM_text hids]
  exact ⟨hvalue, hnodup⟩

theorem readHeader_of {observation : Json} {scope : Option String} {header : Header}
    (h : readHeader observation scope = .ok header) : HeaderOf observation header := by
  simp only [readHeader, bind_eq_ok, require_eq_ok, exists_const, pure_eq_ok, field_eq_ok] at h
  obtain ⟨outer, houter, start, hstart, _, _, stop, -, _, _, _, _, details, hdetails, _, _, blockId,
    hblockId, -, height, hheight, round, hround, timestamp, htimestamp, previous, hprevious, data,
    hdata, active, hactive, _, _, benchmark, hbenchmark, opow, -, code, hcode, challenge, hchallenge,
    rfl⟩ := h
  have hblock : startBlock observation = some start := (member_eq_some houter).trans hstart
  refine ⟨?_, ⟨details, ?_, hheight, hround, htimestamp, hprevious⟩, ⟨active, ?_,
    (activeIds_spec hbenchmark).1, (activeIds_spec hcode).1, (activeIds_spec hchallenge).1⟩,
    (activeIds_spec hbenchmark).2⟩
  · rw [hblock, Option.bind_some, (text_eq_ok.mp hblockId).1]
  · rw [hblock, Option.bind_some, hdetails]
  · rw [hblock, Option.bind_some, member_eq_some hdata, hactive]

/-! ## The scoped view -/

/-- Ids as a compact capture lists them. -/
def listed (names : List String) : Json :=
  .arr ((names.insertionSort (· ≤ ·)).map .str)

/-- What the view of a compact capture shows: the header with the ids that are kept, and the
challenges with the pool's totals. -/
structure Viewed (compact view : Json) (codes challenges : List String) (active : List Json)
    (totals : List ((Json × String) × ℕ)) : Prop where
  id : (startBlock view).bind (·.get? "id") = (startBlock compact).bind (·.get? "id")
  details : ∃ details counts, (startBlock compact).bind (·.get? "details") = some details ∧
    (startBlock view).bind (·.get? "details") = some (details.set "num_active" counts)
  active : ∃ ids, (startBlock view).bind (member · "data" "active_ids") = some ids ∧
    ids.get? "benchmark" = some (.arr active) ∧ ids.get? "challenge" = some (listed challenges) ∧
    ids.get? "code" = some (listed codes)
  codes : member view "algorithms" "codes" = member compact "algorithms" "codes"
  challenges : ∃ rows rows', member compact "challenges" "challenges" = some (.arr rows) ∧
    rows.mapM (scopeChallenge totals) = .ok rows' ∧
    member view "challenges" "challenges" = some (.arr rows')
  players : view.get? "players" = compact.get? "players"

theorem setAt_cons {value member : Json} {key : String} {path : List String} :
    setAt value (key :: path) member
      = value.set key (setAt ((value.get? key).getD .null) path member) := rfl

theorem get?_setAt_ne {value member : Json} {key name : String} {path : List String}
    (h : name ≠ key) : (setAt value (key :: path) member).get? name = value.get? name := by
  rw [setAt_cons, Json.get?_set_ne h]

theorem get?_setAt {value inner member : Json} {key : String} {path : List String}
    (h : value.get? key = some inner) :
    (setAt value (key :: path) member).get? key = some (setAt inner path member) := by
  rw [setAt_cons, Json.get?_set_self (Json.isObject_of_get? h), h, Option.getD_some]

/-- Setting something inside a member of a member. -/
theorem member_setAt {value inner new : Json} {outer name : String} {path : List String}
    (h : member value outer name = some inner) :
    member (setAt value (outer :: name :: path) new) outer name = some (setAt inner path new) := by
  obtain ⟨middle, houter, hinner⟩ := Option.bind_eq_some_iff.mp h
  rw [member_eq_some (get?_setAt houter), get?_setAt hinner]

theorem member_setAt_ne {value new : Json} {key outer name : String} {path : List String}
    (h : outer ≠ key) :
    member (setAt value (key :: path) new) outer name = member value outer name := by
  rw [member, member, get?_setAt_ne h]

theorem compactView_viewed {compact view : Json} {player : String} {isActive : Bool}
    {codes challenges : List String} {active : List Json} {totals : List ((Json × String) × ℕ)}
    (h : compactView compact player isActive codes challenges active totals = .ok view) :
    Viewed compact view codes challenges active totals := by
  simp only [compactView, bind_eq_ok, pure_eq_ok, field_eq_ok] at h
  obtain ⟨start, hstart, block, hblock, details, hdetails, outer, houter, value, hvalue, rows, hrows,
    rows', hrows', rfl⟩ := h
  obtain rfl := Option.some.inj (array_eq_ok.mp hrows)
  have hcompact : startBlock compact = some block := (member_eq_some hstart).trans hblock
  have hisBlock := Json.isObject_of_get? hdetails
  have hchallenges : member compact "challenges" "challenges" = some (.arr rows) :=
    (member_eq_some houter).trans hvalue
  generalize hdata : Json.obj [("active_ids", .obj [("benchmark", .arr active),
    ("challenge", .arr ((challenges.insertionSort (· ≤ ·)).map .str)),
    ("code", .arr ((codes.insertionSort (· ≤ ·)).map .str)),
    ("opow", .arr (if isActive then [Json.str player] else []))])] = data
  generalize hcounts : Json.obj [("benchmark", .int active.length),
    ("challenge", .int challenges.length), ("code", .int codes.length),
    ("opow", .int (if isActive then [Json.str player] else []).length)] = counts
  -- The four changes, one after the other.
  generalize h₁ : setAt compact ["start", "block", "data"] data = v₁
  generalize h₂ : setAt v₁ ["start", "block", "details"] (setAt details ["num_active"] counts) = v₂
  generalize h₃ : setAt v₂ ["end", "block", "details"] (setAt details ["num_active"] counts) = v₃
  have hstart₁ : startBlock v₁ = some (block.set "data" data) := by
    rw [← h₁]
    exact member_setAt hcompact
  have hstart₂ : startBlock v₂
      = some ((block.set "data" data).set "details" (details.set "num_active" counts)) := by
    rw [← h₂]
    exact member_setAt hstart₁
  have hstart₄ : startBlock (setAt v₃ ["challenges", "challenges"] (.arr rows'))
      = some ((block.set "data" data).set "details" (details.set "num_active" counts)) := by
    rw [startBlock, member_setAt_ne (by decide), ← h₃, member_setAt_ne (by decide)]
    exact hstart₂
  have hother {name : String} (hstart : name ≠ "start") (hend : name ≠ "end")
      (hchallenge : name ≠ "challenges") :
      (setAt v₃ ["challenges", "challenges"] (.arr rows')).get? name = compact.get? name := by
    rw [get?_setAt_ne hchallenge, ← h₃, get?_setAt_ne hend, ← h₂, get?_setAt_ne hstart, ← h₁,
      get?_setAt_ne hstart]
  have hchallenges₃ : member v₃ "challenges" "challenges" = some (.arr rows) := by
    rw [← h₃, member_setAt_ne (by decide), ← h₂, member_setAt_ne (by decide), ← h₁,
      member_setAt_ne (by decide)]
    exact hchallenges
  refine ⟨?_, ⟨details, counts, ?_, ?_⟩, ⟨data.get? "active_ids" |>.getD .null, ?_, ?_⟩, ?_,
    ⟨rows, rows', hchallenges, hrows', ?_⟩, hother (by decide) (by decide) (by decide)⟩
  · rw [hstart₄, hcompact, Option.bind_some, Option.bind_some, Json.get?_set_ne (by decide),
      Json.get?_set_ne (by decide)]
  · rw [hcompact, Option.bind_some, hdetails]
  · rw [hstart₄, Option.bind_some, Json.get?_set_self (by rwa [Json.isObject_set])]
  · rw [hstart₄, Option.bind_some, member, Json.get?_set_ne (by decide), Json.get?_set_self hisBlock,
      Option.bind_some, ← hdata]
    rfl
  · rw [← hdata]
    exact ⟨rfl, rfl, rfl⟩
  · rw [member, member, hother (by decide) (by decide) (by decide)]
  · exact member_setAt hchallenges₃

/-! ## What is kept -/

/-- Is the player's feed among those of the active players? -/
def isActiveIn (observation : Json) (player : String) : Bool :=
  ((observation.get? "players").bind (·.get? player)).isSome

/-- The active benchmarks of a player, in order. -/
def ownedIds (snapshot : Snapshot) (player : String) : List String :=
  ((snapshot.precommits.filter fun _ row => ownerOf row = player).keys).insertionSort (· ≤ ·)

/-- A compact capture holds what was kept of an observation, under whatever digests. -/
structure Keeps (observation feed : Json) (player : String) (snapshot : Snapshot)
    (compact : Json) : Prop where
  pool : compact.get? "pool_player_id" = some (.str player)
  id : (startBlock compact).bind (·.get? "id") = (startBlock observation).bind (·.get? "id")
  details : (startBlock compact).bind (·.get? "details")
    = (startBlock observation).bind (·.get? "details")
  codes : ∃ codes, member compact "algorithms" "codes" = some (.arr codes) ∧
    ((rowsOf snapshot.algorithms).insertionSort fun a b => a.1 ≤ b.1).mapM (keptCode player)
      = .ok codes
  challenges : ∃ challenges, member compact "challenges" "challenges" = some (.arr challenges) ∧
    ((rowsOf snapshot.challenges).insertionSort fun a b => a.1 ≤ b.1).mapM keptChallenge
      = .ok challenges
  players : compact.get? "players"
    = some (.obj (if isActiveIn observation player then [(player, feed)] else []))
  isActive : compact.get? "pool_active" = some (.bool (isActiveIn observation player))
  owned : compact.get? "pool_active_benchmark_ids"
    = some (.arr ((ownedIds snapshot player).map .str))
  references : ∃ rows, compact.get? "selection_references" = some (.arr rows) ∧
    (pairRows (references snapshot).values).mapM (keptReference snapshot) = .ok rows

/-- The members that a compact capture is validated from, beside its digests. -/
def scopeNames : List String :=
  ["algorithms", "challenges", "players", "pool_active", "pool_active_benchmark_ids",
    "pool_player_id", "selection_references", "start"]

theorem compactOf_keeps {observation feed result compact : Json} {player digest : String}
    {snapshot : Snapshot} {digests : List String}
    (h : compactOf observation feed player snapshot digests digest = .ok result)
    (hsame : ∀ name ∈ scopeNames, compact.get? name = result.get? name) :
    Keeps observation feed player snapshot compact := by
  simp only [compactOf, bind_eq_ok, pure_eq_ok] at h
  obtain ⟨codes, hcodes, challenges, hchallenges, best, hbest, start, hstart, stop, hstop, outer,
    houter, inner, hinner, rows, hrows, opow, hopow, rfl⟩ := h
  simp only [keptBlock, bind_eq_ok, pure_eq_ok, field_eq_ok] at hstart
  obtain ⟨read, hread, block, hblock, config, hconfig, details, hdetails, id, hid, rfl⟩ := hstart
  have hobserved : startBlock observation = some block := (member_eq_some hread).trans hblock
  have hin {name : String} (hname : name ∈ scopeNames) := hsame name hname
  have hstart : startBlock compact
      = some (.obj [("config", config), ("details", details), ("id", id)]) := by
    rw [startBlock, member, hin (by decide)]
    cases hactive : ((observation.get? "players").bind (·.get? player)).isSome <;> rfl
  refine ⟨?_, ?_, ?_, ⟨codes, ?_, hcodes⟩, ⟨challenges, ?_, hchallenges⟩, ?_, ?_, ?_,
    ⟨best, ?_, hbest⟩⟩
  · rw [hin (by decide)]
    cases hactive : ((observation.get? "players").bind (·.get? player)).isSome <;> rfl
  · rw [hstart, hobserved, Option.bind_some, Option.bind_some, hid]
    rfl
  · rw [hstart, hobserved, Option.bind_some, Option.bind_some, hdetails]
    rfl
  · rw [member, hin (by decide)]
    rfl
  · rw [member, hin (by decide)]
    rfl
  · rw [hin (by decide)]
    rfl
  · rw [hin (by decide)]
    rfl
  · rw [hin (by decide)]
    rfl
  · rw [hin (by decide)]
    cases hactive : ((observation.get? "players").bind (·.get? player)).isSome <;> rfl

/-! ## The validated compact capture -/

/-- What `validateCompact` reads on its way. -/
structure CompactParts where
  player : String
  isActive : Bool
  codes : Table String Json
  challenges : Table String Json
  active : List Json
  totals : List (List ((Json × String) × ℕ))
  view : Json
  block : Snapshot
  references : List Json
  best : Table (String × String) (Bundle × Json)

structure ReadsCompact (compact : Json) (snapshot : Snapshot) (p : CompactParts) : Prop where
  player : compact.get? "pool_player_id" = some (.str p.player)
  isActive : compact.get? "pool_active" = some (.bool p.isActive)
  codes : index (member compact "algorithms" "codes") "id" "compact codes" = .ok p.codes
  challenges : index (member compact "challenges" "challenges") "id" "compact challenges"
    = .ok p.challenges
  active : compact.get? "pool_active_benchmark_ids" = some (.arr p.active)
  view : compactView compact p.player p.isActive p.codes.keys p.challenges.keys p.active
    p.totals.flatten = .ok p.view
  block : validateBlock p.view none = .ok p.block
  references : ∃ value, compact.get? "selection_references" = some value ∧
    iterate value = .ok p.references
  best : readReferences p.codes p.challenges p.references = .ok p.best
  snapshot : snapshot = { p.block with selectionReferences := some p.best }

theorem validateCompact_reads {compact : Json} {snapshot : Snapshot}
    (h : validateCompact compact = .ok snapshot) : ∃ p, ReadsCompact compact snapshot p := by
  simp only [validateCompact, bind_eq_ok, pure_eq_ok, field_eq_ok] at h
  obtain ⟨_, -, name, hname, player, hplayer, activity, hactivity, isActive, hisActive, start, hstart,
    outer, houter, value, hvalue, codes, hcodes, outer', houter', value', hvalue', challenges,
    hchallenges, _, -, active, hactive, _, -, totals, htotals, view, hview, block, hblock, listed,
    hlisted, references, hreferences, best, hbest, _, -, rfl⟩ := h
  have hisActive : activity = .bool isActive := by
    cases activity with
    | bool b => rw [Except.ok.inj hisActive]
    | _ => cases hisActive
  simp only [readActive, bind_eq_ok, require_eq_ok, exists_const, pure_eq_ok, field_eq_ok] at hactive
  obtain ⟨ids, hids, active', hactive', -, -, -, rfl⟩ := hactive
  exact ⟨⟨player, isActive, codes, challenges, active', totals, view, block, references, best⟩,
    { player := by rw [hname, Option.some.inj (text_eq_ok.mp hplayer).1]
      isActive := by rw [hactivity, hisActive]
      codes := by rw [member_eq_some houter, hvalue]; exact hcodes
      challenges := by rw [member_eq_some houter', hvalue']; exact hchallenges
      active := by rw [hids, Option.some.inj (array_eq_ok.mp hactive')]
      view := hview
      block := hblock
      references := ⟨listed, hlisted, hreferences⟩
      best := hbest
      snapshot := rfl }⟩

/-! ### Tables -/

/-- What was kept of the rows of a table is found under the same names. -/
theorem isRow_kept {t : Table String Json} {keep : String × Json → Result Json}
    {rows : List Json} {identity : String} {row' : Json}
    (hname : ∀ row row', keep row = .ok row' → row'.get? "id" = some (.str row.1))
    (h : ((rowsOf t).insertionSort fun a b => a.1 ≤ b.1).mapM keep = .ok rows) :
    IsRow rows "id" identity row' ↔
      ∃ row, t.lookup identity = some row ∧ keep (identity, row) = .ok row' := by
  constructor
  · rintro ⟨hmem, hid⟩
    obtain ⟨⟨name, row⟩, hrow, hkeep⟩ := mem_of_mapM_ok h row' hmem
    cases (hname _ _ hkeep).symm.trans hid
    exact ⟨row, mem_rowsOf.mp ((List.mem_insertionSort _).mp hrow), hkeep⟩
  · rintro ⟨row, hrow, hkeep⟩
    have hmem : (identity, row) ∈ (rowsOf t).insertionSort fun a b => a.1 ≤ b.1 :=
      (List.mem_insertionSort _).mpr (mem_rowsOf.mpr hrow)
    obtain ⟨found, hfound, hok⟩ := exists_of_mapM_ok h hmem
    cases hkeep.symm.trans hok
    exact ⟨hfound, hname _ _ hkeep⟩

theorem keptCode_spec {player : String} {row : String × Json} {kept : Json}
    (h : keptCode player row = .ok kept) : ∃ blockData tracks adoption details state,
      row.2.get? "block_data" = some blockData ∧
      blockData.get? "num_qualifiers_by_track_by_player" = some (.obj tracks) ∧
      blockData.get? "adoption" = some adoption ∧ row.2.get? "details" = some details ∧
      row.2.get? "state" = some state ∧
      kept = .obj [("block_data", .obj [("adoption", adoption),
        ("num_qualifiers_by_track_by_player", .obj (tracks.filterMap fun track =>
          (track.2.get? player).map fun count => (track.1, Json.obj [(player, count)])))]),
        ("details", details), ("id", .str row.1), ("state", state)] := by
  simp only [keptCode, bind_eq_ok, pure_eq_ok, field_eq_ok] at h
  obtain ⟨blockData, hblockData, value, hvalue, tracks, htracks, details, hdetails, state, hstate,
    adoption, hadoption, rfl⟩ := h
  obtain rfl : value = .obj tracks := by
    cases value with
    | obj members => rw [Except.ok.inj htracks]
    | _ => cases htracks
  exact ⟨blockData, tracks, adoption, details, state, hblockData, hvalue, hadoption, hdetails,
    hstate, rfl⟩

theorem keptCode_id (player : String) (row : String × Json) (kept : Json)
    (h : keptCode player row = .ok kept) : kept.get? "id" = some (.str row.1) := by
  obtain ⟨-, -, -, -, -, -, -, -, -, -, rfl⟩ := keptCode_spec h
  rfl

theorem keptChallenge_spec {row : String × Json} {kept : Json} (h : keptChallenge row = .ok kept) :
    ∃ config state, row.2.get? "config" = some config ∧ row.2.get? "state" = some state ∧
      kept = .obj [("config", config), ("id", .str row.1), ("state", state)] := by
  simp only [keptChallenge, bind_eq_ok, pure_eq_ok, field_eq_ok] at h
  obtain ⟨config, hconfig, state, hstate, rfl⟩ := h
  exact ⟨config, state, hconfig, hstate, rfl⟩

theorem keptChallenge_id (row : String × Json) (kept : Json) (h : keptChallenge row = .ok kept) :
    kept.get? "id" = some (.str row.1) := by
  obtain ⟨-, -, -, -, rfl⟩ := keptChallenge_spec h
  rfl

theorem scopeChallenge_spec {totals : List ((Json × String) × ℕ)} {challenge shown : Json}
    (h : scopeChallenge totals challenge = .ok shown) :
    ∃ blockData, shown = challenge.set "block_data" blockData := by
  simp only [scopeChallenge, bind_eq_ok, pure_eq_ok] at h
  obtain ⟨-, -, -, -, -, -, -, -, -, -, rfl⟩ := h
  exact ⟨_, rfl⟩

/-- The active records are the rows under the names that are active. -/
theorem activeRecords_lookup {ids : List String} {rows active : Table String Json} {kind : String}
    (h : activeRecords ids rows kind = .ok active) {identity : String} {row : Json} :
    active.lookup identity = some row ↔ rows.lookup identity = some row ∧ identity ∈ ids := by
  simp only [activeRecords, bind_eq_ok, require_eq_ok, exists_const, pure_eq_ok] at h
  obtain ⟨-, rfl⟩ := h
  rw [Table.lookup_filter, decide_eq_true_iff]

theorem mem_listed {names ids : List String} (h : listed names = .arr (ids.map .str))
    {name : String} : name ∈ ids ↔ name ∈ names := by
  have hids : ids = names.insertionSort (· ≤ ·) :=
    List.map_injective_iff.mpr (fun a b hab => Json.str.inj hab) (Json.arr.inj h).symm
  rw [hids, List.mem_insertionSort]

section

variable {observation feed compact : Json} {player : String} {s c : Snapshot} {cp : CompactParts}
  {p q : Parts}

theorem ReadsCompact.viewed (h : ReadsCompact compact c cp) :
    Viewed compact cp.view cp.codes.keys cp.challenges.keys cp.active cp.totals.flatten :=
  compactView_viewed h.view

/-- The algorithms of the view are those that were kept. -/
theorem lookup_kept_algorithm (hk : Keeps observation feed player s compact)
    (hc : ReadsCompact compact c cp) (hq : Reads cp.view none cp.block q) {identity : String}
    {row' : Json} : cp.block.algorithms.lookup identity = some row' ↔
      ∃ row, s.algorithms.lookup identity = some row ∧ keptCode player (identity, row) = .ok row' := by
  obtain ⟨codes, hcodes, hmap⟩ := hk.codes
  have hrows := hc.codes
  have hviewed := hq.codes
  rw [hcodes] at hrows
  rw [hc.viewed.codes, hcodes] at hviewed
  obtain ⟨active, hactive, -, hcode, -⟩ := (readHeader_of hq.header).active
  obtain ⟨ids, hids, -, -, hlisted⟩ := hc.viewed.active
  cases hactive.symm.trans hids
  rw [activeRecords_lookup hq.algorithms, index_lookup hviewed,
    ← isRow_kept (keptCode_id player) hmap]
  refine and_iff_left_of_imp fun hrow => (mem_listed (Option.some.inj (hlisted.symm.trans hcode))).mpr ?_
  exact AList.mem_keys.mp (AList.lookup_isSome.mp
    (Option.isSome_iff_exists.mpr ⟨row', (index_lookup hrows).mpr hrow⟩))

/-- The challenges of the view are those that were kept, with the pool's totals. -/
theorem lookup_kept_challenge (hk : Keeps observation feed player s compact)
    (hc : ReadsCompact compact c cp) (hq : Reads cp.view none cp.block q) {identity : String}
    {shown : Json} : cp.block.challenges.lookup identity = some shown ↔
      ∃ row kept, s.challenges.lookup identity = some row ∧
        keptChallenge (identity, row) = .ok kept ∧
        scopeChallenge cp.totals.flatten kept = .ok shown := by
  obtain ⟨challenges, hchallenges, hmap⟩ := hk.challenges
  have hrows := hc.challenges
  have hviewed := hq.challenges
  obtain ⟨rows, rows', hkept, hscope, hshown⟩ := hc.viewed.challenges
  rw [hchallenges] at hrows hkept
  cases hkept
  rw [hshown] at hviewed
  obtain ⟨active, hactive, -, -, hchallenge⟩ := (readHeader_of hq.header).active
  obtain ⟨ids, hids, -, hlisted, -⟩ := hc.viewed.active
  cases hactive.symm.trans hids
  -- A row of the view is a kept row with other totals.
  have hrow : IsRow rows' "id" identity shown ↔ ∃ kept, IsRow challenges "id" identity kept ∧
      scopeChallenge cp.totals.flatten kept = .ok shown := by
    constructor
    · rintro ⟨hmem, hid⟩
      obtain ⟨kept, hkept, hok⟩ := mem_of_mapM_ok hscope shown hmem
      obtain ⟨blockData, rfl⟩ := scopeChallenge_spec hok
      rw [Json.get?_set_ne (by decide)] at hid
      exact ⟨kept, ⟨hkept, hid⟩, hok⟩
    · rintro ⟨kept, ⟨hmem, hid⟩, hok⟩
      obtain ⟨found, hfound, hok'⟩ := exists_of_mapM_ok hscope hmem
      cases hok.symm.trans hok'
      obtain ⟨blockData, rfl⟩ := scopeChallenge_spec hok
      exact ⟨hfound, by rwa [Json.get?_set_ne (by decide)]⟩
  have hkept : (∃ kept, IsRow challenges "id" identity kept ∧
      scopeChallenge cp.totals.flatten kept = .ok shown) ↔
      ∃ row kept, s.challenges.lookup identity = some row ∧
        keptChallenge (identity, row) = .ok kept ∧
        scopeChallenge cp.totals.flatten kept = .ok shown := by
    simp only [isRow_kept keptChallenge_id hmap]
    constructor
    · rintro ⟨kept, ⟨row, hrow, hok⟩, hscope⟩
      exact ⟨row, kept, hrow, hok, hscope⟩
    · rintro ⟨row, kept, hrow, hok, hscope⟩
      exact ⟨kept, ⟨row, hrow, hok⟩, hscope⟩
  rw [activeRecords_lookup hq.challenge, index_lookup hviewed, ← hkept, hrow]
  refine and_iff_left_of_imp ?_
  rintro ⟨kept, hkept, -⟩
  refine (mem_listed (Option.some.inj (hlisted.symm.trans hchallenge))).mpr ?_
  exact AList.mem_keys.mp (AList.lookup_isSome.mp
    (Option.isSome_iff_exists.mpr ⟨kept, (index_lookup hrows).mpr hkept⟩))

/-! ### The header and the feed -/

/-- The view has the header of the observation, and the pool's benchmarks. -/
theorem header_kept (hk : Keeps observation feed player s compact)
    (hc : ReadsCompact compact c cp) (hp : Reads observation none s p)
    (hq : Reads cp.view none cp.block q) :
    q.header.blockId = p.header.blockId ∧ q.header.previousBlockId = p.header.previousBlockId ∧
      q.header.height = p.header.height ∧ q.header.round = p.header.round ∧
      q.header.timestamp = p.header.timestamp ∧ q.header.benchmark = ownedIds s player := by
  have hpOf := readHeader_of hp.header
  have hqOf := readHeader_of hq.header
  have hblockId := hqOf.blockId
  rw [hc.viewed.id, hk.id, hpOf.blockId] at hblockId
  obtain ⟨details, hdetails, hheight, hround, htimestamp, hprevious⟩ := hpOf.details
  obtain ⟨details', hdetails', hheight', hround', htimestamp', hprevious'⟩ := hqOf.details
  obtain ⟨inner, counts, hinner, hset⟩ := hc.viewed.details
  rw [hk.details, hdetails] at hinner
  obtain rfl := Option.some.inj hinner
  rw [hset] at hdetails'
  obtain rfl := Option.some.inj hdetails'
  simp only [Json.get?_set_ne (show "height" ≠ "num_active" by decide),
    Json.get?_set_ne (show "round" ≠ "num_active" by decide),
    Json.get?_set_ne (show "timestamp" ≠ "num_active" by decide),
    Json.get?_set_ne (show "prev_block_id" ≠ "num_active" by decide)]
    at hheight' hround' htimestamp' hprevious'
  obtain ⟨active, hactive, hbenchmark, -, -⟩ := hqOf.active
  obtain ⟨ids, hids, hlisted, -, -⟩ := hc.viewed.active
  cases hactive.symm.trans hids
  have howned := hk.owned
  rw [hc.active] at howned
  rw [Option.some.inj howned, hbenchmark] at hlisted
  refine ⟨(Json.str.inj (Option.some.inj hblockId)).symm, Except.ok.inj (hprevious'.symm.trans hprevious),
    Except.ok.inj (hheight'.symm.trans hheight), Except.ok.inj (hround'.symm.trans hround),
    Except.ok.inj (htimestamp'.symm.trans htimestamp), ?_⟩
  exact List.map_injective_iff.mpr (fun a b hab => Json.str.inj hab)
    (Json.arr.inj (Option.some.inj hlisted))

end

section

variable (sha256 : Json → String)

theorem canonicalItems_perm (path : List String) (items : List Json) :
    (canonicalItems sha256 path items).Perm items := by
  unfold canonicalItems
  split
  · exact List.perm_insertionSort _ _
  · split
    · exact List.perm_insertionSort _ _
    · exact .refl _

theorem lookup_canonicalMembers (path : List String) (name : String) :
    ∀ members, (canonicalMembers sha256 path members).lookup name
      = (members.lookup name).map (canonicalAt sha256 (path ++ [name]))
  | [] => by rw [canonicalMembers]; rfl
  | (key, member) :: members => by
      rw [canonicalMembers, List.lookup_cons, List.lookup_cons,
        lookup_canonicalMembers path name members]
      by_cases h : name = key
      · subst h
        simp
      · rw [beq_false_of_ne h]

theorem get?_canonicalAt (path : List String) (value : Json) (name : String) :
    (canonicalAt sha256 path value).get? name
      = (value.get? name).map (canonicalAt sha256 (path ++ [name])) := by
  cases value with
  | obj members =>
      rw [canonicalAt]
      exact lookup_canonicalMembers sha256 path name members
  | _ => simp [canonicalAt, Json.get?]

/-- The replayable form of a feed has the rows of the feed. -/
theorem feedRow_canonical {feed row : Json} {name key identity : String} :
    FeedRow (canonicalObservation sha256 feed) name key identity row ↔
      FeedRow feed name key identity row := by
  unfold FeedRow canonicalObservation
  rw [get?_canonicalAt]
  constructor
  · rintro ⟨rows, hrows, hmem, hname⟩
    obtain ⟨value, hvalue, heq⟩ := Option.map_eq_some_iff.mp hrows
    cases value with
    | arr items =>
        rw [canonicalAt] at heq
        cases heq
        exact ⟨items, hvalue, (canonicalItems_perm sha256 _ items).subset hmem, hname⟩
    | _ => simp [canonicalAt] at heq
  · rintro ⟨rows, hrows, hmem, hname⟩
    refine ⟨canonicalItems sha256 ([] ++ [name]) rows, ?_,
      (canonicalItems_perm sha256 _ rows).symm.subset hmem, hname⟩
    rw [hrows, Option.map_some, canonicalAt]

end

section

variable {sha256 : Json → String} {observation raw compact : Json} {player : String}
  {s c : Snapshot} {cp : CompactParts} {p q : Parts}

theorem readFeeds_none {header : Header} {feeds : List (String × Json)}
    (h : readFeeds observation header none = .ok feeds) :
    observation.get? "players" = some (.obj feeds) := by
  simp only [readFeeds, bind_eq_ok, require_eq_ok, exists_const, pure_eq_ok, field_eq_ok] at h
  obtain ⟨value, hvalue, players, hplayers, -, rfl⟩ := h
  rw [hvalue, object_eq_ok.mp hplayers]

/-- A row of a feed of the view is a row of the pool's feed. -/
theorem feed_kept (hk : Keeps observation (canonicalObservation sha256 raw) player s compact)
    (hraw : poolFeed observation player = some raw) (hc : ReadsCompact compact c cp)
    (hp : Reads observation none s p) (hq : Reads cp.view none cp.block q) :
    ∀ feed ∈ q.feeds, feed.1 = player ∧ ∃ feed' ∈ p.feeds, ∀ {name key identity row},
      FeedRow feed.2 name key identity row → FeedRow feed'.2 name key identity row := by
  intro feed hfeed
  have hplayers := readFeeds_none hq.feeds
  rw [hc.viewed.players, hk.players] at hplayers
  obtain hfeeds := Json.obj.inj (Option.some.inj hplayers)
  cases hactive : isActiveIn observation player with
  | false =>
      rw [hactive, if_neg Bool.false_ne_true] at hfeeds
      rw [← hfeeds] at hfeed
      cases hfeed
  | true =>
      rw [hactive, if_pos rfl] at hfeeds
      rw [← hfeeds, List.mem_singleton] at hfeed
      subst hfeed
      refine ⟨rfl, (player, raw), ?_, fun h => (feedRow_canonical sha256).mp h⟩
      have hmembers := readFeeds_none hp.feeds
      obtain ⟨found, hfound⟩ := Option.isSome_iff_exists.mp hactive
      rw [poolFeed, hfound, Option.some_or, Option.some.injEq] at hraw
      subst hraw
      rw [hmembers, Option.bind_some] at hfound
      exact Json.mem_of_lookup hfound

theorem mem_ownedIds {identity : String} : identity ∈ ownedIds s player ↔
    ∃ row, s.precommits.lookup identity = some row ∧ ownerOf row = player := by
  rw [ownedIds, List.mem_insertionSort, ← AList.mem_keys, ← AList.lookup_isSome,
    Option.isSome_iff_exists]
  simp only [Table.lookup_filter, decide_eq_true_eq]

/-- The records of the view are records of the observation, the precommits the pool's. -/
theorem records_kept (hk : Keeps observation (canonicalObservation sha256 raw) player s compact)
    (hraw : poolFeed observation player = some raw) (hc : ReadsCompact compact c cp)
    (hp : Reads observation none s p) (hq : Reads cp.view none cp.block q) {identity : String}
    {row : Json} :
    (q.records.precommits.lookup identity = some row →
      p.records.precommits.lookup identity = some row ∧ ownerOf row = player) ∧
    (q.records.benchmarks.lookup identity = some row →
      p.records.benchmarks.lookup identity = some row) ∧
    (q.records.proofs.lookup identity = some row →
      p.records.proofs.lookup identity = some row) := by
  have hpRecords := foldlM_addFeed_records hp.records
  have hqRecords := foldlM_addFeed_records hq.records
  have hfeed := feed_kept hk hraw hc hp hq
  refine ⟨fun h => ?_, fun h => ?_, fun h => ?_⟩
  · obtain ⟨feed, hmem, hrow⟩ := hqRecords.precommits.mp h
    obtain ⟨hname, feed', hmem', hkept⟩ := hfeed feed hmem
    exact ⟨hpRecords.precommits.mpr ⟨feed', hmem', hkept hrow⟩,
      (hqRecords.owners feed hmem hrow).trans hname⟩
  · obtain ⟨feed, hmem, hrow⟩ := hqRecords.benchmarks.mp h
    obtain ⟨-, feed', hmem', hkept⟩ := hfeed feed hmem
    exact hpRecords.benchmarks.mpr ⟨feed', hmem', hkept hrow⟩
  · obtain ⟨feed, hmem, hrow⟩ := hqRecords.proofs.mp h
    obtain ⟨-, feed', hmem', hkept⟩ := hfeed feed hmem
    exact hpRecords.proofs.mpr ⟨feed', hmem', hkept hrow⟩

/-! ### Precommits and bundles -/

theorem precommits_kept (hk : Keeps observation (canonicalObservation sha256 raw) player s compact)
    (hraw : poolFeed observation player = some raw) (hc : ReadsCompact compact c cp)
    (hp : Reads observation none s p) (hq : Reads cp.view none cp.block q) {identity : String}
    {row : Json} : cp.block.precommits.lookup identity = some row ↔
      s.precommits.lookup identity = some row ∧ ownerOf row = player := by
  obtain ⟨-, -, -, -, -, hids⟩ := header_kept hk hc hp hq
  have hp' {row : Json} (h : s.precommits.lookup identity = some row) :
      p.records.precommits.lookup identity = some row := by
    rw [hp.precommits] at h
    exact (Table.lookup_filter.mp h).1
  have hrecord {row : Json} (h : q.records.precommits.lookup identity = some row) :
      p.records.precommits.lookup identity = some row ∧ ownerOf row = player :=
    (records_kept hk hraw hc hp hq).1 h
  rw [hq.precommits, Table.lookup_filter, decide_eq_true_iff, hids]
  constructor
  · rintro ⟨hrow, howned⟩
    obtain ⟨row', hrow', howner⟩ := mem_ownedIds.mp howned
    cases (hp' hrow').symm.trans (hrecord hrow).1
    exact ⟨hrow', howner⟩
  · rintro ⟨hrow, howner⟩
    have howned : identity ∈ ownedIds s player := mem_ownedIds.mpr ⟨row, hrow, howner⟩
    refine ⟨?_, howned⟩
    -- Every active benchmark of the view has its precommit.
    obtain ⟨hmem, -, -⟩ := hq.benchmarks identity (by rwa [hids])
    obtain ⟨row', hrow'⟩ := Option.isSome_iff_exists.mp
      (AList.lookup_isSome.mpr hmem)
    cases (hp' hrow).symm.trans (hrecord hrow').1
    exact hrow'

theorem lookupName_eq_some {t : Table String Json} {name row : Json} :
    lookupName t name = .ok (some row) ↔ ∃ identity, name = .str identity ∧
      t.lookup identity = some row := by
  unfold lookupName
  split
  next identity =>
    rw [Except.ok.injEq]
    constructor
    · exact fun h => ⟨identity, rfl, h⟩
    · rintro ⟨_, heq, h⟩
      cases heq
      exact h
  next hnot =>
    simp only [bind_eq_ok, require_eq_ok, exists_const, pure_eq_ok]
    constructor
    · rintro ⟨-, ⟨⟩⟩
    · rintro ⟨identity, rfl, -⟩
      exact absurd rfl (hnot identity)

/-- The tracks of a benchmark's challenge are the same. -/
theorem tracksOf_kept (hk : Keeps observation (canonicalObservation sha256 raw) player s compact)
    (hc : ReadsCompact compact c cp) (hq : Reads cp.view none cp.block q) {settings tracks : Json}
    (h : tracksOf cp.block.algorithms cp.block.challenges settings = .ok tracks) :
    tracksOf s.algorithms s.challenges settings = .ok tracks := by
  simp only [tracksOf, bind_eq_ok, field_eq_ok, fetch_eq_ok, require_eq_ok, exists_const] at h ⊢
  obtain ⟨challengeName, hchallengeName, found, hfound, shown, hshown, algorithmName, halgorithmName,
    found', hfound', algorithm, halgorithm, details, hdetails, hsame, config, hconfig, htracks⟩ := h
  subst hshown halgorithm
  obtain ⟨challengeId, rfl, hrow⟩ := lookupName_eq_some.mp hfound
  obtain ⟨algorithmId, rfl, hrow'⟩ := lookupName_eq_some.mp hfound'
  obtain ⟨challenge, kept, hchallenge, hkept, hscope⟩ := (lookup_kept_challenge hk hc hq).mp hrow
  obtain ⟨blockData, rfl⟩ := scopeChallenge_spec hscope
  obtain ⟨config', state, hconfig', -, rfl⟩ := keptChallenge_spec hkept
  obtain ⟨code, hcode, hkeptCode⟩ := (lookup_kept_algorithm hk hc hq).mp hrow'
  obtain ⟨_, _, _, details', _, -, -, -, hdetails', -, rfl⟩ := keptCode_spec hkeptCode
  rw [Json.get?_set_ne (by decide)] at hconfig
  cases hconfig
  cases hdetails
  exact ⟨_, hchallengeName, some challenge, lookupName_eq_some.mpr ⟨_, rfl, hchallenge⟩, challenge,
    rfl, _, halgorithmName, some code, lookupName_eq_some.mpr ⟨_, rfl, hcode⟩, code, rfl, _,
    hdetails', hsame, _, hconfig', htracks⟩

/-- The bundles of a benchmark of the pool are read alike. -/
theorem benchmarkBundles_kept
    (hk : Keeps observation (canonicalObservation sha256 raw) player s compact)
    (hraw : poolFeed observation player = some raw) (hc : ReadsCompact compact c cp)
    (hp : Reads observation none s p) (hq : Reads cp.view none cp.block q) {benchmarkId : String}
    {bundles : List Bundle} (h : benchmarkBundles q.header q.records cp.block.algorithms
      cp.block.challenges benchmarkId = .ok bundles) :
    benchmarkBundles p.header p.records s.algorithms s.challenges benchmarkId = .ok bundles := by
  obtain ⟨-, -, hheight, -, -, -⟩ := header_kept hk hc hp hq
  simp only [benchmarkBundles, bind_eq_ok, fetch_eq_ok] at h ⊢
  obtain ⟨precommit, hprecommit, benchmark, hbenchmark, proof, hproof, u, hlifecycle, settings,
    hsettings, tracks, htracks, h⟩ := h
  have hrecords {row : Json} := @records_kept sha256 observation raw compact player s c cp p q hk hraw
    hc hp hq benchmarkId row
  rw [hheight] at hlifecycle
  exact ⟨precommit, (hrecords.1 hprecommit).1, benchmark, hrecords.2.1 hbenchmark, proof,
    hrecords.2.2 hproof, u, hlifecycle, settings, hsettings, tracks, tracksOf_kept hk hc hq htracks, h⟩

/-- Lists that are read from some of the names have the elements that belong to these. -/
theorem flatten_filter {f g : String → Result (List Bundle)} {keep : String → Bool}
    {own : Bundle → Bool} {ids : List String} {xs ys : List (List Bundle)}
    (hf : ids.mapM f = .ok xs) (hg : (ids.filter keep).mapM g = .ok ys)
    (hgf : ∀ id bundles, g id = .ok bundles → f id = .ok bundles)
    (hown : ∀ id ∈ ids, ∀ bundles, f id = .ok bundles → ∀ bundle ∈ bundles, own bundle = keep id) :
    ys.flatten = xs.flatten.filter own := by
  induction ids generalizing xs ys with
  | nil =>
      obtain rfl := pure_eq_ok.mp hf
      obtain rfl := pure_eq_ok.mp hg
      rfl
  | cons id ids ih =>
      simp only [List.mapM_cons, bind_eq_ok, pure_eq_ok] at hf
      obtain ⟨bundles, hbundles, xs, hxs, rfl⟩ := hf
      have hhead := hown id (List.mem_cons_self ..) bundles hbundles
      have hrest := fun i hi => hown i (List.mem_cons_of_mem _ hi)
      rw [List.flatten_cons, List.filter_append]
      cases hkeep : keep id with
      | false =>
          rw [List.filter_cons_of_neg (by rw [hkeep]; exact Bool.false_ne_true)] at hg
          have hnone : bundles.filter own = [] := List.filter_eq_nil_iff.mpr fun b hb => by
            rw [hhead b hb, hkeep]
            exact Bool.false_ne_true
          rw [ih hxs hg hrest, hnone, List.nil_append]
      | true =>
          rw [List.filter_cons_of_pos hkeep] at hg
          simp only [List.mapM_cons, bind_eq_ok, pure_eq_ok] at hg
          obtain ⟨bundles', hbundles', ys, hys, rfl⟩ := hg
          cases (hgf id bundles' hbundles').symm.trans hbundles
          have hall : bundles.filter own = bundles := List.filter_eq_self.mpr fun b hb => by
            rw [hhead b hb, hkeep]
          rw [List.flatten_cons, ih hxs hys hrest, hall]

/-- The view has the pool's bundles. -/
theorem bundles_kept (hk : Keeps observation (canonicalObservation sha256 raw) player s compact)
    (hraw : poolFeed observation player = some raw) (hc : ReadsCompact compact c cp)
    (hp : Reads observation none s p) (hq : Reads cp.view none cp.block q) :
    cp.block.bundles = s.bundles.filter (·.playerId = player) := by
  obtain ⟨-, -, -, -, -, hids⟩ := header_kept hk hc hp hq
  have hsorted : q.header.benchmark.insertionSort (· ≤ ·)
      = (p.header.benchmark.insertionSort (· ≤ ·)).filter (· ∈ ownedIds s player) := by
    have hsame (ids : List String) : (ids.insertionSort (· ≤ ·)).Perm ids :=
      List.perm_insertionSort _ ids
    have hpairwise (ids : List String) : (ids.insertionSort (· ≤ ·)).Pairwise (· ≤ ·) :=
      List.pairwise_insertionSort _ ids
    have hactive : ∀ id ∈ ownedIds s player, id ∈ p.header.benchmark := by
      intro id hid
      obtain ⟨row, hrow, -⟩ := mem_ownedIds.mp hid
      rw [hp.precommits] at hrow
      exact of_decide_eq_true (Table.lookup_filter.mp hrow).2
    refine List.Perm.eq_of_pairwise (fun a b _ _ => le_antisymm) (hpairwise _)
      ((hpairwise _).sublist List.filter_sublist) ?_
    refine (List.perm_ext_iff_of_nodup
      ((hsame _).nodup_iff.mpr (readHeader_of hq.header).distinct)
      (((hsame _).nodup_iff.mpr (readHeader_of hp.header).distinct).filter _)).mpr fun id => ?_
    rw [(hsame _).mem_iff, hids, List.mem_filter, (hsame _).mem_iff, decide_eq_true_iff]
    exact (and_iff_right_of_imp (hactive id)).symm
  rw [hq.all, hp.all]
  have hbundles := hq.bundles
  rw [hsorted] at hbundles
  refine flatten_filter hp.bundles hbundles
    (fun id bundles h => benchmarkBundles_kept hk hraw hc hp hq h) ?_
  intro id hid bundles hread bundle hbundle
  obtain ⟨hown, -⟩ := benchmarkBundles_spec hread
  obtain ⟨-, precommit, hprecommit, howner⟩ := hown bundle hbundle
  have hactive : id ∈ p.header.benchmark := (List.mem_insertionSort _).mp hid
  have hrow : s.precommits.lookup id = some precommit := by
    rw [hp.precommits]
    exact Table.lookup_filter.mpr ⟨hprecommit, decide_eq_true hactive⟩
  rw [decide_eq_decide, ← howner, mem_ownedIds, hrow]
  constructor
  · exact fun h => ⟨precommit, rfl, h⟩
  · rintro ⟨_, ⟨⟩, h⟩
    exact h

end

end Protocol

end TigPool
