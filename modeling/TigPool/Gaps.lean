/-
# `TigPool.Gaps` — which rounds the block status lists as held

Two computations judge the missing heights of a round by the same policy.  Block status
counts them from the contiguous cursor on; settlement counts them over the whole round.
Below the cursor every height from the collection start on is saved, so the two counts
differ by the missing heights before the collection start and by nothing else.
-/
import TigPool.Cursor

namespace TigPool

open Basis

namespace BlockStore

/-! ## Block status -/

inductive GapState where
  /-- `open`: the round has not ended. -/
  | unended
  | held
  | warning
  | tolerated
deriving DecidableEq

structure RoundMissing where
  round : ℕ
  missing : ℕ
  waived : ℕ
  ended : Bool
  state : GapState
deriving DecidableEq

structure Status where
  stream : ObservationStream
  missingHeights : List ℕ
  waivedMissingHeights : List ℕ
  unresolvedMissingHeights : List ℕ
  conflictingHeights : List ℕ
  resolvedConflictingHeights : List ℕ
  latestTimestamp : Option ℤ
  missingBlockPolicy : MissingBlockPolicy
  missingByRound : List RoundMissing
  heldRounds : List ℕ

/-- The heights past the contiguous cursor, up to the latest seen, without a block. -/
def missingAhead (db : Db) (stream : ObservationStream) : List ℕ :=
  (List.range' (stream.contiguousHeight + 1).toNat
    (stream.latestSeenHeight - stream.contiguousHeight).toNat).filter
      fun height => (atHeight db height).isNone

def hasWaiver (db : Db) (height : ℕ) : Bool :=
  (db.observation.gapWaivers.lookup height).isSome

/-- The block at the greatest height. -/
def headBlock (db : Db) : Option ObservedBlock :=
  (db.observation.blocks.entries.map (·.2)).argmax fun b => b.height

def roundMissing (db : Db) (stream : ObservationStream) (policy : MissingBlockPolicy)
    (length round : ℕ) : RoundMissing :=
  let heights := (missingAhead db stream).filter fun height => height / length + 1 = round
  let missing := heights.countP fun height => ¬ hasWaiver db height
  let waived := heights.countP (hasWaiver db)
  let ended : Bool := ((round * length : ℕ) : ℤ) - 1 ≤ stream.latestSeenHeight
  let state :=
    if ¬ ended then .unended
    else if policy.maxMissingPerRound < missing ∨ length ≤ missing + waived then .held
    else if policy.warnMissingPerRound < missing then .warning
    else .tolerated
  { round, missing, waived, ended, state }

/-- Unresolved missing heights of each round since the contiguous cursor, against the
limits. -/
def missingByRound (db : Db) (stream : ObservationStream) (policy : MissingBlockPolicy) :
    List RoundMissing :=
  match headBlock db with
  | none => []
  | some head =>
      (((missingAhead db stream).map fun height => height / head.blocksPerRound + 1).dedup).map
        (roundMissing db stream policy head.blocksPerRound)

/-- The heights of conflict alerts, each once, the lowest hundred. -/
def alertHeights (db : Db) (resolved : Bool) : List ℕ :=
  ((((db.observation.conflicts.filter fun alert => alert.resolved = resolved).map
    (·.height)).dedup).mergeSort).take 100

def status (db : Db) : Result (Option Status) :=
  match db.observation.stream with
  | none => .ok none
  | some stream => do
      let missing := (missingAhead db stream).take 100
      let policy ← gapPolicy db
      let rounds := missingByRound db stream policy
      return some
        { stream, missingHeights := missing
          waivedMissingHeights := missing.filter fun height => hasWaiver db height
          unresolvedMissingHeights := missing.filter fun height => ¬ hasWaiver db height
          conflictingHeights := alertHeights db false
          resolvedConflictingHeights := alertHeights db true
          latestTimestamp := (db.observation.blocks.entries.map (·.2.timestamp)).max?
          missingBlockPolicy := policy, missingByRound := rounds
          heldRounds := (rounds.filter fun row => row.state = .held).map (·.round) }

end BlockStore

/-! ## Waivers -/

/-- A waiver names the round of its height, by the length that a saved neighbour gives. -/
def Observation.Bracketed (o : Observation) (height : ℕ) (waiver : GapWaiver) : Prop :=
  ∃ id b, o.blocks.lookup id = some b ∧ waiver.roundNumber = height / b.blocksPerRound + 1

theorem BlockStore.waivePrelaunchGap_bracketed {db db' : Db} {height : ℕ} {actor reason : String}
    {evidence : Json} (h : waivePrelaunchGap db height actor reason evidence = .ok db') :
    db' = db ∨ ∃ waiver, db.observation.Bracketed height waiver ∧
      db' = putWaivers db (AList.insert height waiver db.observation.gapWaivers) := by
  simp only [waivePrelaunchGap, bind_eq_ok, require_eq_ok, exists_const] at h
  obtain ⟨-, -, h⟩ := h
  split at h
  next => exact Or.inl (Except.ok.inj h).symm
  next =>
    simp only [bind_eq_ok, require_eq_ok, exists_const, fetch_eq_ok, pure_eq_ok] at h
    obtain ⟨-, -, -, -, -, ⟨id, previous⟩, hprevious, _, -, -, -, -, rfl⟩ := h
    obtain ⟨hsaved, -⟩ := atHeight_eq_some hprevious
    exact Or.inr ⟨_, ⟨id, previous, hsaved, rfl⟩, rfl⟩

theorem BlockStore.advance_waivers {db : Db} :
    (advance db).observation.gapWaivers = db.observation.gapWaivers := by
  rcases @advance_cases db with h | ⟨_, _, -, h⟩
  · rw [h]
  · rw [h]
    rfl

section

variable {held : Held} {db db' : Db} {a : ObservationAction}

/-- A waiver is bracketed when it is made. -/
theorem ObservationStep.waiver (h : ObservationStep held db a db') {height : ℕ}
    {waiver : GapWaiver} (hw : db'.observation.gapWaivers.lookup height = some waiver) :
    db.observation.gapWaivers.lookup height = some waiver ∨
      db.observation.Bracketed height waiver := by
  by_cases ha : a.archives = true
  · obtain ⟨_, rfl⟩ := h.archived ha
    exact Or.inl hw
  cases h with
  | initializeStore h =>
      rcases BlockStore.initializeStore_cases h with rfl | ⟨-, rfl⟩ <;> exact Or.inl hw
  | record h =>
      obtain ⟨stream, -, -, hcases⟩ := BlockStore.record_cases h
      rcases hcases with ⟨-, rfl⟩ | ⟨c, -, -, ⟨-, rfl⟩ | ⟨-, saved, hsaved, rfl⟩⟩
      · exact Or.inl hw
      · exact Or.inl hw
      · change (BlockStore.advance saved).observation.gapWaivers.lookup height = _ at hw
        rw [BlockStore.advance_waivers, hsaved] at hw
        rcases BlockStore.save_frame with ⟨-, heq⟩ | ⟨-, heq⟩ <;> (rw [heq] at hw; exact Or.inl hw)
  | resolve h =>
      rcases BlockStore.resolve_cases h with rfl | ⟨_, _, -, rfl⟩
      · exact Or.inl hw
      · rw [BlockStore.advance_waivers] at hw
        exact Or.inl hw
  | setGapPolicy h =>
      rcases BlockStore.setGapPolicy_cases h with rfl | ⟨_, rfl⟩ <;> exact Or.inl hw
  | waivePrelaunchGap h =>
      rcases BlockStore.waivePrelaunchGap_bracketed h with rfl | ⟨_, hbracketed, rfl⟩
      · exact Or.inl hw
      · rcases Table.lookup_insert_cases hw with ⟨rfl, rfl⟩ | ⟨-, hold⟩
        · exact Or.inr hbracketed
        · exact Or.inl hold
  | creditBlock _ _ h =>
      rcases Qualifiers.creditBlock_cases h with rfl | ⟨_, -, -, -, -, -, -, rfl⟩ <;> exact Or.inl hw
  | _ => exact absurd rfl ha

end

namespace Sys

variable {s : Sys} {allowed : Sys → Action → Prop}

theorem Reachable.bracketed (h : Reachable allowed s) {height : ℕ} {waiver : GapWaiver}
    (hw : s.db.observation.gapWaivers.lookup height = some waiver) :
    s.db.observation.Bracketed height waiver := by
  have hall : ∀ height waiver, s.db.observation.gapWaivers.lookup height = some waiver →
      s.db.observation.Bracketed height waiver := by
    refine Reachable.invariant (I := fun s => ∀ height waiver,
      s.db.observation.gapWaivers.lookup height = some waiver →
        s.db.observation.Bracketed height waiver) h ?_ ?_
    · intro s hs height waiver hw
      rw [hs.waivers] at hw
      cases hw
    · intro s a s' _ hs hI hstep height waiver hw
      have hbefore : s.db.observation.Bracketed height waiver := by
        by_cases ho : ∃ o, a = .observe o
        · obtain ⟨o, rfl⟩ := ho
          cases hstep with
          | observe hstep => exact (hstep.waiver hw).elim (hI height waiver) fun h => h
        · rw [hstep.observation hs.lawful fun o ha => ho ⟨o, ha⟩] at hw
          exact hI height waiver hw
      obtain ⟨id, b, hb, hround⟩ := hbefore
      obtain ⟨b', hb', hextends⟩ := hstep.blocks_extend hs.lawful hb
      exact ⟨id, b', hb', by rw [hextends.blocksPerRound]; exact hround⟩
  exact hall height waiver hw

end Sys

/-! ## The missing heights of a round -/

namespace BlockStore

variable {db : Db} {stream : ObservationStream} {policy : MissingBlockPolicy} {n round : ℕ}

/-- The heights of a round without a block and without a waiver. -/
def unresolvedMissing (db : Db) (round length : ℕ) : List ℕ :=
  (roundHeights round length).filter fun height =>
    (atHeight db height).isNone ∧ ¬ hasWaiver db height

theorem mem_roundHeights (hn : 0 < n) (hround : 0 < round) {height : ℕ} :
    height ∈ roundHeights round n ↔ height / n + 1 = round := by
  obtain ⟨k, rfl⟩ := Nat.exists_eq_succ_of_ne_zero hround.ne'
  rw [roundHeights, List.mem_range'_1, Nat.succ_sub_one, Nat.succ_inj, Nat.div_eq_iff hn]
  omega

theorem roundEnd_le (hn : 0 < n) (hround : 0 < round) {latest : ℤ}
    (hended : ∀ height ∈ roundHeights round n, (height : ℤ) ≤ latest) :
    ((round * n : ℕ) : ℤ) - 1 ≤ latest := by
  obtain ⟨k, rfl⟩ := Nat.exists_eq_succ_of_ne_zero hround.ne'
  have hlast := hended (k * n + (n - 1)) (by
    rw [roundHeights, List.mem_range'_1, Nat.succ_sub_one]
    omega)
  rw [Nat.succ_mul]
  omega

theorem mem_missingAhead {height : ℕ} (hstart : 0 ≤ stream.contiguousHeight + 1) :
    height ∈ missingAhead db stream ↔ stream.contiguousHeight < height ∧
      (height : ℤ) ≤ stream.latestSeenHeight ∧ (atHeight db height).isNone = true := by
  rw [missingAhead, List.mem_filter, List.mem_range'_1, ← and_assoc]
  refine and_congr_left' ⟨fun h => ?_, fun h => ?_⟩ <;> omega

theorem nodup_missingAhead : (missingAhead db stream).Nodup :=
  List.Nodup.filter _ (List.nodup_range' 1)

/-- The store agrees on one length of its rounds. -/
structure OneLength (db : Db) (n : ℕ) : Prop where
  linked : db.observation.Linked
  lawful : ∀ {id b}, db.observation.blocks.lookup id = some b → b.Lawful
  bracketed : ∀ {height waiver}, db.observation.gapWaivers.lookup height = some waiver →
    db.observation.Bracketed height waiver
  length : ∀ {id b}, db.observation.blocks.lookup id = some b → b.blocksPerRound = n

namespace OneLength

/-- A saved block is in the round of its height. -/
theorem roundOf (h : OneLength db n) {id : String} {b : ObservedBlock}
    (hb : db.observation.blocks.lookup id = some b) : 0 < n ∧ b.height / n + 1 = b.round := by
  rw [← h.length hb]
  exact ⟨(h.lawful hb).length, (h.lawful hb).round⟩

theorem blockOfRound_isNone (h : OneLength db n) (hround : 0 < round) {height : ℕ}
    (hheight : height ∈ roundHeights round n) :
    (blockOfRound db round height).isNone = (atHeight db height).isNone := by
  have hiff : (∃ id b, db.observation.blocks.lookup id = some b ∧ b.height = height ∧
      b.round = round) ↔ ∃ id b, db.observation.SavedAt height id b := by
    constructor
    · rintro ⟨id, b, hb, rfl, -⟩
      exact ⟨id, b, hb, rfl⟩
    · rintro ⟨id, b, hb, hat⟩
      obtain ⟨hn, hb'⟩ := h.roundOf hb
      have hat : b.height = height := by exact_mod_cast hat
      exact ⟨id, b, hb, hat, by rw [← hb', hat, (mem_roundHeights hn hround).mp hheight]⟩
  rw [Bool.eq_iff_iff, Option.isNone_iff_eq_none, Option.isNone_iff_eq_none]
  constructor
  · intro hnone
    cases hat : atHeight db height with
    | none => rfl
    | some e =>
        obtain ⟨id, b, hb, hsame, hin⟩ := hiff.mpr ⟨e.1, e.2, atHeight_eq_some hat⟩
        have hnot := Table.find_eq_none.mp (Option.map_eq_none_iff.mp hnone) id b hb
        simp [hsame, hin] at hnot
  · intro hnone
    rw [blockOfRound, Option.map_eq_none_iff, Table.find_eq_none]
    intro id b hb
    have hnot := atHeight_eq_none hnone
    rw [← hiff] at hnot
    simpa using fun hsame hin => hnot ⟨id, b, hb, hsame, hin⟩

/-- A waived height is waived for its own round. -/
theorem isWaived_eq (h : OneLength db n) (hn : 0 < n) (hround : 0 < round) {height : ℕ}
    (hheight : height ∈ roundHeights round n) : isWaived db round height = hasWaiver db height := by
  unfold isWaived hasWaiver
  cases hw : db.observation.gapWaivers.lookup height with
  | none => rfl
  | some waiver =>
      obtain ⟨id, b, hb, hnumber⟩ := h.bracketed hw
      rw [h.length hb, (mem_roundHeights hn hround).mp hheight] at hnumber
      simp [hnumber]

theorem roundLengths_eq (h : OneLength db n) {id : String} {b : ObservedBlock}
    (hb : db.observation.blocks.lookup id = some b) (hround : b.round = round) :
    roundLengths db round = [n] := by
  have hmem : ∀ m, m ∈ roundLengths db round ↔ m = n := by
    intro m
    rw [roundLengths, List.mem_dedup, List.mem_map]
    constructor
    · rintro ⟨e, he, rfl⟩
      exact h.length (Table.mem_entries_iff.mp (List.mem_filter.mp he).1)
    · rintro rfl
      exact ⟨⟨id, b⟩, List.mem_filter.mpr ⟨Table.mem_entries_iff.mpr hb, by simpa using hround⟩,
        h.length hb⟩
  refine List.perm_singleton.mp ((List.perm_ext_iff_of_nodup (List.nodup_dedup _)
    (List.nodup_singleton n)).mpr fun m => ?_)
  exact (hmem m).trans List.mem_singleton.symm

theorem headBlock_length (h : OneLength db n) {id : String} {b : ObservedBlock}
    (hb : db.observation.blocks.lookup id = some b) :
    ∃ head, headBlock db = some head ∧ head.blocksPerRound = n := by
  cases hhead : headBlock db with
  | none =>
      have hnil := List.map_eq_nil_iff.mp (List.argmax_eq_none.mp hhead)
      have hmem := Table.mem_entries_iff.mpr hb
      rw [hnil] at hmem
      cases hmem
  | some head =>
      obtain ⟨e, he, rfl⟩ := List.mem_map.mp (List.argmax_mem hhead)
      exact ⟨e.2, rfl, h.length (Table.mem_entries_iff.mp he)⟩

/-- Settlement counts the missing heights of the whole round. -/
theorem roundGaps_complete (h : OneLength db n) {id : String} {b : ObservedBlock}
    (hb : db.observation.blocks.lookup id = some b) (hround : b.round = round)
    (hpolicy : gapPolicy db = .ok policy) (hstream : db.observation.stream = some stream)
    (hended : ∀ height ∈ roundHeights round n, (height : ℤ) ≤ stream.latestSeenHeight)
    (hclear : ∀ height ∈ roundHeights round n, Reports.hasUnresolvedConflict db height = false) :
    ∃ gaps, roundGaps db round = .ok gaps ∧ (gaps.complete = true ↔
      (unresolvedMissing db round n).length ≤ policy.maxMissingPerRound) := by
  obtain ⟨hn, hnumber⟩ := h.roundOf hb
  have hpos : 0 < round := by
    rw [← hround, ← hnumber]
    exact Nat.succ_pos _
  have hmissing : (((roundHeights round n).filter fun height =>
      (blockOfRound db round height).isNone).filter fun height => ¬ isWaived db round height)
        = unresolvedMissing db round n := by
    rw [List.filter_filter, unresolvedMissing]
    refine List.filter_congr fun height hheight => ?_
    rw [h.blockOfRound_isNone hpos hheight, h.isWaived_eq hn hpos hheight, Bool.eq_iff_iff]
    simp [and_comm]
  have hend := roundEnd_le hn hpos hended
  have hconflict : (db.observation.conflicts.any fun alert =>
      alert.height ∈ roundHeights round n ∧ ¬ alert.resolved) = false := by
    rw [List.any_eq_false]
    intro alert halert hbad
    obtain ⟨hin, hopen⟩ := of_decide_eq_true hbad
    have hnone := List.any_eq_false.mp (hclear _ hin) alert halert
    simp_all
  rw [roundGaps, hpolicy, h.roundLengths_eq hb hround]
  refine ⟨_, rfl, ?_⟩
  simp only [hmissing, hconflict, hstream, Option.any_some, hend, decide_true, decide_eq_true_eq,
    true_and, Bool.false_eq_true, not_false_eq_true]

end OneLength

/-- Block status counts those at or above the collection start: from there up to the
contiguous cursor none is missing. -/
theorem countP_missingAhead (hexact : db.observation.Exact) (hn : 0 < n)
    (hround : 0 < round) (hstream : db.observation.stream = some stream)
    (hended : ∀ height ∈ roundHeights round n, (height : ℤ) ≤ stream.latestSeenHeight) :
    ((missingAhead db stream).filter fun height => height / n + 1 = round).countP
      (fun height => ¬ hasWaiver db height) =
    ((unresolvedMissing db round n).filter (stream.launchHeight ≤ ·)).length := by
  have hto := (hexact.cursor stream hstream).1
  have hlaunched := hto.launched
  rw [List.countP_eq_length_filter]
  refine List.Perm.length_eq ((List.perm_ext_iff_of_nodup ?_ ?_).mpr fun height => ?_)
  · exact (nodup_missingAhead.filter _).filter _
  · exact ((List.nodup_range' 1).filter _).filter _
  · rw [unresolvedMissing]
    simp only [List.mem_filter, mem_missingAhead (show 0 ≤ stream.contiguousHeight + 1 by omega),
      mem_roundHeights hn hround, decide_eq_true_eq]
    constructor
    · rintro ⟨⟨⟨hahead, -, hnone⟩, hin⟩, hwaiver⟩
      exact ⟨⟨hin, hnone, hwaiver⟩, by omega⟩
    · rintro ⟨⟨hin, hnone, hwaiver⟩, hstart⟩
      refine ⟨⟨⟨?_, hended _ ((mem_roundHeights hn hround).mpr hin), hnone⟩, hin⟩, hwaiver⟩
      by_contra hbehind
      obtain ⟨⟨id, b, hb⟩, -⟩ := hto.clear height (by exact_mod_cast hstart) (not_lt.mp hbehind)
      exact atHeight_eq_none (Option.isNone_iff_eq_none.mp hnone) ⟨id, b, hb⟩

/-- A round with a saved block never misses all its heights. -/
theorem length_missingAhead_lt (h : OneLength db n) (hround : 0 < round)
    (hstart : 0 ≤ stream.contiguousHeight + 1) {id : String} {b : ObservedBlock}
    (hb : db.observation.blocks.lookup id = some b) (hin : b.round = round) :
    ((missingAhead db stream).filter fun height => height / n + 1 = round).length < n := by
  obtain ⟨hn, hnumber⟩ := h.roundOf hb
  have hnot : b.height ∉ (missingAhead db stream).filter fun height => height / n + 1 = round := by
    intro hmem
    have hnone := ((mem_missingAhead hstart).mp (List.mem_filter.mp hmem).1).2.2
    exact atHeight_eq_none (Option.isNone_iff_eq_none.mp hnone) ⟨id, b, hb, rfl⟩
  have hsub : b.height :: ((missingAhead db stream).filter fun height => height / n + 1 = round) ⊆
      roundHeights round n := by
    intro height hmem
    rw [mem_roundHeights hn hround]
    rcases List.mem_cons.mp hmem with rfl | hmem
    · rw [hnumber, hin]
    · exact of_decide_eq_true (List.mem_filter.mp hmem).2
  have hle := ((List.nodup_cons.mpr ⟨hnot, nodup_missingAhead.filter _⟩).subperm hsub).length_le
  rwa [roundHeights, List.length_range', List.length_cons, Nat.succ_le_iff] at hle

/-- The state that block status gives to a round which has ended and has a block. -/
theorem roundMissing_held (h : OneLength db n) (hround : 0 < round)
    (hstart : 0 ≤ stream.contiguousHeight + 1) {id : String} {b : ObservedBlock}
    (hb : db.observation.blocks.lookup id = some b) (hin : b.round = round)
    (hend : ((round * n : ℕ) : ℤ) - 1 ≤ stream.latestSeenHeight) :
    (roundMissing db stream policy n round).state = .held ↔ policy.maxMissingPerRound <
      ((missingAhead db stream).filter fun height => height / n + 1 = round).countP
        fun height => ¬ hasWaiver db height := by
  have hlt := length_missingAhead_lt h hround hstart hb hin
  rw [List.length_eq_countP_add_countP (hasWaiver db)] at hlt
  simp only [roundMissing, hend, decide_true, not_true_eq_false, if_false]
  constructor
  · intro hstate
    split at hstate
    next hheld => exact hheld.resolve_right (by omega)
    next => split at hstate <;> cases hstate
  · intro hmany
    rw [if_pos (Or.inl hmany)]

/-- A round is listed as held if its state is so. -/
theorem mem_heldRounds (h : OneLength db n) (hround : 0 < round)
    (hpolicy : gapPolicy db = .ok policy) (hstream : db.observation.stream = some stream)
    (hstart : 0 ≤ stream.contiguousHeight + 1) {id : String} {b : ObservedBlock}
    (hb : db.observation.blocks.lookup id = some b) (hin : b.round = round)
    (hend : ((round * n : ℕ) : ℤ) - 1 ≤ stream.latestSeenHeight) :
    ∃ report, status db = .ok (some report) ∧ (round ∈ report.heldRounds ↔
      policy.maxMissingPerRound < ((missingAhead db stream).filter fun height =>
        height / n + 1 = round).countP fun height => ¬ hasWaiver db height) := by
  obtain ⟨head, hhead, hlength⟩ := h.headBlock_length hb
  rw [status, hstream]
  dsimp only
  rw [hpolicy]
  refine ⟨_, rfl, ?_⟩
  rw [← roundMissing_held h hround hstart hb hin hend, missingByRound, hhead]
  dsimp only
  rw [hlength]
  simp only [List.mem_map, List.mem_filter, List.mem_dedup, decide_eq_true_eq]
  constructor
  · rintro ⟨_, ⟨⟨round', -, rfl⟩, hstate⟩, rfl⟩
    exact hstate
  · intro hstate
    refine ⟨_, ⟨⟨round, ?_, rfl⟩, hstate⟩, rfl⟩
    -- A held round misses a height, and is on the list for it.
    have hmany := (roundMissing_held h hround hstart hb hin hend).mp hstate
    obtain ⟨height, hheight, -⟩ := List.countP_pos_iff.mp (Nat.zero_lt_of_lt hmany)
    obtain ⟨hmissing, hnumber⟩ := List.mem_filter.mp hheight
    exact ⟨height, hmissing, of_decide_eq_true hnumber⟩

end BlockStore

/-! ## The two views -/

/-- In every reachable state whose rounds have one length, for every round that has ended,
has a saved block and no unresolved conflict: block status lists the round as held exactly
if its missing heights from the collection start on exceed the limit, and settlement finds
it incomplete exactly if all its missing heights do.  So what is held is incomplete, and
from the first round that begins at the collection start or later the views agree. -/
theorem held_rounds {s : Sys} (h : Sys.Reachable Sys.Any s) {n round : ℕ}
    (hlength : ∀ id b, s.db.observation.blocks.lookup id = some b → b.blocksPerRound = n)
    {stream : ObservationStream} (hstream : s.db.observation.stream = some stream)
    {policy : MissingBlockPolicy} (hpolicy : BlockStore.gapPolicy s.db = .ok policy)
    (hended : ∀ height ∈ BlockStore.roundHeights round n, (height : ℤ) ≤ stream.latestSeenHeight)
    (hobserved : ∃ id b, s.db.observation.blocks.lookup id = some b ∧ b.round = round)
    (hclear : ∀ height ∈ BlockStore.roundHeights round n,
      Reports.hasUnresolvedConflict s.db height = false) :
    ∃ report gaps, BlockStore.status s.db = .ok (some report) ∧
      BlockStore.roundGaps s.db round = .ok gaps ∧
      (round ∈ report.heldRounds ↔ policy.maxMissingPerRound <
        ((BlockStore.unresolvedMissing s.db round n).filter (stream.launchHeight ≤ ·)).length) ∧
      (gaps.complete = false ↔ policy.maxMissingPerRound <
        (BlockStore.unresolvedMissing s.db round n).length) ∧
      (round ∈ report.heldRounds → gaps.complete = false) ∧
      (stream.launchHeight ≤ (round - 1) * n →
        (round ∈ report.heldRounds ↔ gaps.complete = false)) := by
  have hone : BlockStore.OneLength s.db n :=
    ⟨h.exact.linked, h.block_lawful, h.bracketed, hlength _ _⟩
  obtain ⟨id, b, hb, hround⟩ := hobserved
  obtain ⟨hn, hnumber⟩ := hone.roundOf hb
  have hpos : 0 < round := by
    rw [← hround, ← hnumber]
    exact Nat.succ_pos _
  have hlaunched := (h.exact.cursor stream hstream).1.launched
  have hend := BlockStore.roundEnd_le hn hpos hended
  obtain ⟨report, hreport, hheld⟩ :=
    BlockStore.mem_heldRounds hone hpos hpolicy hstream (by omega) hb hround hend
  obtain ⟨gaps, hgaps, hcomplete⟩ :=
    hone.roundGaps_complete hb hround hpolicy hstream hended hclear
  rw [BlockStore.countP_missingAhead h.exact hn hpos hstream hended] at hheld
  have hincomplete : gaps.complete = false ↔ policy.maxMissingPerRound <
      (BlockStore.unresolvedMissing s.db round n).length := by
    rw [← not_le, ← hcomplete, Bool.not_eq_true]
  refine ⟨report, gaps, hreport, hgaps, hheld, hincomplete, ?_, ?_⟩
  · rw [hheld, hincomplete]
    intro hmany
    exact hmany.trans_le (List.length_filter_le _ _)
  · intro hfirst
    rw [hheld, hincomplete, List.filter_eq_self.mpr]
    intro height hheight
    have hin := (List.mem_filter.mp hheight).1
    rw [BlockStore.roundHeights, List.mem_range'_1] at hin
    exact decide_eq_true (hfirst.trans hin.1)

namespace MidRound

/-- A block at the end of the first round. -/
def block : BlockStore.BlockCapture :=
  { FirstDay.block with blockId := "block-99", height := 99, round := 1, blocksPerRound := 100 }

def run : Result Db := do
  let db ← BlockStore.initializeStore migrated 60
  BlockStore.record db FirstDay.source (some block) (some 99)

/-- Collection starts in the middle of a round, and the round ends. -/
def night : Sys where
  db := run.toOption.getD migrated
  held := Held.empty

theorem reachable : Sys.Reachable Sys.Any night := by
  have hrun : run = .ok night.db := eq_ok_getD (a := migrated) (by decide +kernel)
  obtain ⟨db, hinit, hrecord⟩ := bind_eq_ok.mp hrun
  have hstarted : Leads Sys.Step Sys.Any ⟨migrated, Held.empty⟩ ⟨db, Held.empty⟩ :=
    .one trivial (.observe (.initializeStore hinit))
  exact ⟨⟨migrated, Held.empty⟩, Sys.initial_migrated,
    hstarted.step trivial (.observe (.record hrecord))⟩

def stream : ObservationStream where
  launchHeight := 60
  contiguousHeight := 59
  latestSeenHeight := 99

def policy : MissingBlockPolicy where
  policy := "bounded-zero-credit-v1"
  revision := 1
  maxMissingPerRound := 50
  warnMissingPerRound := 10

/-- What the night leaves, evaluated. -/
theorem night_state : night.db.observation.stream = some stream ∧
    night.db.observation.policies.head? = some policy ∧
    (night.db.observation.blocks.any fun _ b => b.blocksPerRound ≠ 100) = false ∧
    (night.db.observation.blocks.any fun _ b => b.round = 1) = true ∧
    (∀ height ∈ BlockStore.roundHeights 1 100,
      Reports.hasUnresolvedConflict night.db height = false) ∧
    (BlockStore.unresolvedMissing night.db 1 100).length = 99 ∧
    ((BlockStore.unresolvedMissing night.db 1 100).filter (60 ≤ ·)).length = 39 := by
  decide +kernel

theorem stream_night : night.db.observation.stream = some stream := night_state.1

theorem policy_night : BlockStore.gapPolicy night.db = .ok policy :=
  fetch_eq_ok.mpr night_state.2.1

theorem length_night (id : String) (b : ObservedBlock)
    (hb : night.db.observation.blocks.lookup id = some b) : b.blocksPerRound = 100 := by
  simpa using Table.any_eq_false.mp night_state.2.2.1 id b hb

theorem observed_night :
    ∃ id b, night.db.observation.blocks.lookup id = some b ∧ b.round = 1 := by
  obtain ⟨id, b, hb, hround⟩ := Table.any_iff.mp night_state.2.2.2.1
  exact ⟨id, b, hb, of_decide_eq_true hround⟩

theorem clear_night : ∀ height ∈ BlockStore.roundHeights 1 100,
    Reports.hasUnresolvedConflict night.db height = false := night_state.2.2.2.2.1

theorem ended_night : ∀ height ∈ BlockStore.roundHeights 1 100,
    (height : ℤ) ≤ stream.latestSeenHeight := by
  intro height hheight
  rw [BlockStore.roundHeights, List.mem_range'_1] at hheight
  have hlast : stream.latestSeenHeight = 99 := rfl
  omega

/-- 99 heights of the round are missing, 39 of them since collection started: settlement
finds the round incomplete, and block status does not hold it. -/
theorem held_rounds_night : ∃ report gaps, BlockStore.status night.db = .ok (some report) ∧
    BlockStore.roundGaps night.db 1 = .ok gaps ∧ 1 ∉ report.heldRounds ∧
    gaps.complete = false := by
  obtain ⟨report, gaps, hreport, hgaps, hheld, hincomplete, -⟩ := held_rounds reachable
    length_night stream_night policy_night ended_night observed_night clear_night
  obtain ⟨-, -, -, -, -, hall, hsince⟩ := night_state
  refine ⟨report, gaps, hreport, hgaps, fun hlisted => ?_, hincomplete.mpr ?_⟩
  · have hmany := hheld.mp hlisted
    rw [show stream.launchHeight = 60 from rfl, hsince] at hmany
    exact absurd hmany (by decide)
  · rw [hall]
    decide

/-- Settlement finds the round incomplete, and block status does not list it. -/
theorem held_rounds_fails : ¬ ∀ (s : Sys) (n round : ℕ) (stream : ObservationStream)
    (report : BlockStore.Status) (gaps : BlockStore.RoundGaps),
    Sys.Reachable Sys.Any s →
    (∀ id b, s.db.observation.blocks.lookup id = some b → b.blocksPerRound = n) →
    s.db.observation.stream = some stream →
    (∀ height ∈ BlockStore.roundHeights round n, (height : ℤ) ≤ stream.latestSeenHeight) →
    (∃ id b, s.db.observation.blocks.lookup id = some b ∧ b.round = round) →
    (∀ height ∈ BlockStore.roundHeights round n,
      Reports.hasUnresolvedConflict s.db height = false) →
    (∃ height ∈ BlockStore.roundHeights round n, stream.launchHeight ≤ height) →
    BlockStore.status s.db = .ok (some report) → BlockStore.roundGaps s.db round = .ok gaps →
    (round ∈ report.heldRounds ↔ gaps.complete = false) := by
  intro hagree
  have hheld : ((BlockStore.status night.db).toOption.join.map (·.heldRounds)) = some [] := by
    decide +kernel
  have hcomplete : ((BlockStore.roundGaps night.db 1).toOption.map (·.complete)) = some false := by
    decide +kernel
  obtain ⟨report, hreport, hnone⟩ := Option.map_eq_some_iff.mp hheld
  obtain ⟨gaps, hgaps, hincomplete⟩ := Option.map_eq_some_iff.mp hcomplete
  have hlisted := (hagree night 100 1 stream report gaps reachable length_night stream_night
    ended_night observed_night clear_night ⟨99, by decide +kernel, by decide⟩
    (eq_ok_of_toOption (Option.join_eq_some_iff.mp hreport)) (eq_ok_of_toOption hgaps)).mpr hincomplete
  rw [hnone] at hlisted
  cases hlisted

end MidRound

end TigPool
