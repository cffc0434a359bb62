/-
# `TigPool.Replays` — a saved block, replayed

`record` compacts an observation that names the pool's player, and keeps it in the form in which
it is replayed; with the block goes the digest of that form.  `archived` says which block an
observation makes and which form of it is kept.  What is kept and validates again is a capture
of that block: `archived_shows`.
-/
import TigPool.Captures
import TigPool.CompactView

namespace TigPool

open Basis

namespace Protocol

/-! ## What is kept -/

/-- The feeds of the players, and the pool's own while it is pending. -/
def feedsOf (observation : Json) : Table String Json :=
  let players := match observation.get? "players" with
    | some (.obj members) => members
    | _ => []
  let pending := match observation.get? "pool_player_id", observation.get? "pool_pending" with
    | some (.str player), some feed => [(player, feed)]
    | _, _ => []
  (players ++ pending).foldr (fun row t => AList.insert row.1 row.2 t) ∅

/-- The number of blocks in a round, by the block's own configuration. -/
def roundLength (observation : Json) : Result ℕ :=
  match (blockConfig observation).get? "rounds" |>.bind (·.get? "blocks_per_round") with
  | some (.int length) => do
      require (0 < length) (.protocolData "round length is unavailable")
      return length.toNat
  | _ => .error (.protocolData "round length is unavailable")

/-- The player that the observation names as the pool's. -/
def poolPlayerOf (observation : Json) : Option String :=
  match observation.get? "pool_player_id" with
  | some (.str player) => if player = "" then none else some player
  | _ => none

/-- One blob: a compact capture, or one that never held other players' feeds. -/
def isCompact (observation : Json) : Bool :=
  observation.get? "format" = some (.str "pool-network-v1") ∨
    observation.get? "format" = some (.str "pool-scoped-v2")

section

variable (fingerprint : Json → String)

/-- The form of an observation that is kept, and replayed. -/
def stored (observation : Json) : Json :=
  if isCompact observation then observation else canonicalObservation fingerprint observation

/-- What `record` makes of an observation: what it is compacted to, and what that validates
as. -/
def archived (observation : Json) : Result (Json × Snapshot) := do
  let snapshot ← validateSnapshot observation
  if (observation.get? "pool_player_id").any Json.truthy then
    let compact ← compactObservation fingerprint observation .two
    return (compact, ← validateSnapshot compact)
  else return (observation, snapshot)

end

end Protocol

open Protocol

/-- The capture is that of the observation, of which this form is kept. -/
structure Archives (fingerprint : Json → String) (observation kept : Json)
    (source : BlockStore.Source) (c : BlockStore.BlockCapture) : Prop where
  block : ∃ given snapshot, archived fingerprint observation = .ok (given, snapshot) ∧
    kept = stored fingerprint given ∧ c.blockId = snapshot.blockId ∧
    c.height = snapshot.height ∧ c.previousId = snapshot.previousBlockId ∧
    c.round = snapshot.round ∧ c.timestamp = snapshot.timestamp ∧
    c.semanticDigest = semantic fingerprint snapshot kept
  player : source.poolPlayer = poolPlayerOf observation
  length : roundLength observation = .ok c.blocksPerRound
  /-- The block is credited for what its capture says when it is replayed. -/
  read : ∀ snapshot, validateSnapshot kept = .ok snapshot →
    c.snapshot = snapshot.credited (feedsOf kept)

/-- A saved observation, and what it validates as. -/
structure Replay where
  observation : Json
  snapshot : Snapshot
  valid : validateSnapshot observation = .ok snapshot

/-- The row of a block is that of what is replayed. -/
structure Replay.Shows (replay : Replay) (id : String) (block : ObservedBlock) : Prop where
  blockId : replay.snapshot.blockId = id
  height : block.height = replay.snapshot.height
  previousId : block.previousId = replay.snapshot.previousBlockId
  round : block.round = replay.snapshot.round
  timestamp : block.timestamp = replay.snapshot.timestamp
  credited : block.snapshot = replay.snapshot.credited (feedsOf replay.observation)

theorem Replay.Shows.later {replay : Replay} {id : String} {block block' : ObservedBlock}
    (h : replay.Shows id block) (hx : block.Extends block') : replay.Shows id block' where
  blockId := h.blockId
  height := hx.height.trans h.height
  previousId := (congrArg ObservedBlock.previousId hx.facts).trans h.previousId
  round := (congrArg ObservedBlock.round hx.facts).trans h.round
  timestamp := (congrArg ObservedBlock.timestamp hx.facts).trans h.timestamp
  credited := hx.snapshot.trans h.credited

namespace Protocol

/-! ## What is kept is of the same block -/

/-- Two readings of one header. -/
structure Snapshot.SameBlock (snapshot snapshot' : Snapshot) : Prop where
  blockId : snapshot'.blockId = snapshot.blockId
  height : snapshot'.height = snapshot.height
  previousBlockId : snapshot'.previousBlockId = snapshot.previousBlockId
  round : snapshot'.round = snapshot.round
  timestamp : snapshot'.timestamp = snapshot.timestamp

section

variable {fingerprint : Json → String} {observation kept : Json} {snapshot snapshot' : Snapshot}

theorem canonicalAt_eq_str {path : List String} {value : Json} {text : String} :
    canonicalAt fingerprint path value = .str text ↔ value = .str text := by
  cases value <;> simp [canonicalAt]

theorem isCompact_canonical :
    isCompact (canonicalObservation fingerprint observation) = isCompact observation := by
  have hformat : ∀ text, (canonicalObservation fingerprint observation).get? "format"
      = some (.str text) ↔ observation.get? "format" = some (.str text) := by
    intro text
    rw [canonicalObservation, get?_canonicalAt, Option.map_eq_some_iff]
    simp [canonicalAt_eq_str]
  simp only [isCompact, hformat]

/-- An observation of no other format is validated as a whole block. -/
theorem validateBlock_of (h : validateSnapshot observation = .ok snapshot)
    (hcompact : isCompact observation = false) : validateBlock observation none = .ok snapshot := by
  have hformat := validateFormat_of h
  simp only [isCompact, Bool.decide_or, Bool.or_eq_false_iff, decide_eq_false_iff_not] at hcompact
  simp only [validateFormat, bind_eq_ok] at hformat
  obtain ⟨-, -, hformat⟩ := hformat
  rwa [if_neg hcompact.1, if_neg hcompact.2] at hformat

theorem startBlock_canonical : startBlock (canonicalObservation fingerprint observation)
    = (startBlock observation).map (canonicalAt fingerprint ["start", "block"]) := by
  rw [startBlock, startBlock, member, member, canonicalObservation, get?_canonicalAt]
  cases observation.get? "start" with
  | none => rfl
  | some start => exact get?_canonicalAt ..

/-- A text or a number is replayed as it is. -/
theorem scalar_canonical {path : List String} {value inner : Json} {name : String}
    (h : value.get? name = some inner)
    (hscalar : ∀ path, canonicalAt fingerprint path inner = inner) :
    (canonicalAt fingerprint path value).get? name = some inner := by
  rw [get?_canonicalAt, h, Option.map_some, hscalar]

/-- The replayable form has the header of the observation. -/
theorem headerOf_canonical {header header' : Header} (h : HeaderOf observation header)
    (h' : HeaderOf (canonicalObservation fingerprint observation) header') :
    header'.blockId = header.blockId ∧ header'.height = header.height ∧
      header'.previousBlockId = header.previousBlockId ∧ header'.round = header.round ∧
      header'.timestamp = header.timestamp := by
  obtain ⟨details, hdetails, hheight, hround, htimestamp, hprevious⟩ := h.details
  obtain ⟨details', hdetails', hheight', hround', htimestamp', hprevious'⟩ := h'.details
  have hid := h.blockId
  have hid' := h'.blockId
  rw [startBlock_canonical] at hid' hdetails'
  cases hblock : startBlock observation with
  | none =>
      rw [hblock] at hid
      cases hid
  | some block =>
      rw [hblock, Option.bind_some] at hid hdetails
      rw [hblock, Option.map_some, Option.bind_some] at hid' hdetails'
      rw [get?_canonicalAt, hdetails, Option.map_some, Option.some.injEq] at hdetails'
      subst hdetails'
      have hnumber {key label : String} {minimum : ℤ} {n n' : ℕ}
          (hn : integer (details.get? key) label minimum = .ok n)
          (hn' : integer ((canonicalAt fingerprint (["start", "block"] ++ ["details"]) details).get?
            key) label minimum = .ok n') : n' = n := by
        obtain ⟨i, hi, -⟩ := integer_eq_ok.mp hn
        rw [scalar_canonical hi fun _ => by simp [canonicalAt], ← hi, hn] at hn'
        exact (Except.ok.inj hn').symm
      refine ⟨?_, hnumber hheight hheight', ?_, hnumber hround hround',
        hnumber htimestamp htimestamp'⟩
      · rw [scalar_canonical hid fun _ => by simp [canonicalAt]] at hid'
        exact (Json.str.inj (Option.some.inj hid')).symm
      · have hp := (text_eq_ok.mp hprevious).1
        rw [scalar_canonical hp fun _ => by simp [canonicalAt], ← hp, hprevious] at hprevious'
        exact (Except.ok.inj hprevious').symm

theorem stored_sameBlock (h : validateSnapshot observation = .ok snapshot)
    (h' : validateSnapshot (stored fingerprint observation) = .ok snapshot') :
    snapshot.SameBlock snapshot' := by
  unfold stored at h'
  split at h'
  next =>
    obtain rfl := Except.ok.inj (h.symm.trans h')
    exact ⟨rfl, rfl, rfl, rfl, rfl⟩
  next hcompact =>
    have hcompact : isCompact observation = false := by simpa using hcompact
    obtain ⟨p, hp⟩ := validateBlock_reads (validateBlock_of h hcompact)
    obtain ⟨p', hp'⟩ := validateBlock_reads
      (validateBlock_of h' (isCompact_canonical.trans hcompact))
    obtain ⟨hid, hheight, hprevious, hround, htimestamp⟩ :=
      headerOf_canonical (readHeader_of hp.header) (readHeader_of hp'.header)
    obtain ⟨b₁, b₂, b₃, b₄, b₅⟩ := hp.block
    obtain ⟨c₁, c₂, c₃, c₄, c₅⟩ := hp'.block
    exact ⟨c₁.trans (hid.trans b₁.symm), c₃.trans (hheight.trans b₃.symm),
      c₂.trans (hprevious.trans b₂.symm), c₄.trans (hround.trans b₄.symm),
      c₅.trans (htimestamp.trans b₅.symm)⟩

theorem archived_valid {given : Json}
    (h : archived fingerprint observation = .ok (given, snapshot)) :
    validateSnapshot given = .ok snapshot := by
  simp only [archived, bind_eq_ok] at h
  obtain ⟨first, hfirst, h⟩ := h
  split at h
  · simp only [bind_eq_ok, pure_eq_ok, Prod.mk.injEq] at h
    obtain ⟨compact, -, second, hsecond, rfl, rfl⟩ := h
    exact hsecond
  · simp only [pure_eq_ok, Prod.mk.injEq] at h
    obtain ⟨rfl, rfl⟩ := h
    exact hfirst

end

end Protocol

/-- What is kept of an observation shows the block that it was recorded as. -/
theorem Archives.shows {fingerprint : Json → String} {observation kept : Json}
    {source : BlockStore.Source} {c : BlockStore.BlockCapture}
    (h : Archives fingerprint observation kept source c) {replay : Replay}
    (hkept : replay.observation = kept) (attemptId : Uuid) (now : Time) :
    replay.Shows c.blockId (c.block attemptId now) := by
  obtain ⟨given, snapshot, hgiven, rfl, hid, hheight, hprevious, hround, htime, -⟩ := h.block
  have hvalid := hkept ▸ replay.valid
  have hsame := stored_sameBlock (archived_valid hgiven) hvalid
  exact ⟨hsame.blockId.trans hid.symm, hheight.trans hsame.height.symm,
    hprevious.trans hsame.previousBlockId.symm, hround.trans hsame.round.symm,
    htime.trans (congrArg Nat.cast hsame.timestamp.symm), hkept ▸ h.read _ hvalid⟩

end TigPool
