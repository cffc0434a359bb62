/-
# `TigPool.SelectionRule` — selection is the declared rule

The tables and lists of a snapshot come in the order of hashed sets and of what observers
sent.  `Reordered` relates data that differ in such orders only; `choose` does not tell
them apart.  With what `TigPool.Choice` says about one choice, this is the rule that the
service declares, where a challenge without active tracks takes no work and null stands for
the parameters of a reference that has none.
-/
import TigPool.Choice
import TigPool.Reading

namespace TigPool

open Basis

namespace Protocol

/-! ## Orders -/

theorem rel_some {α β : Type} {R : α → β → Prop} {o : Option α} {o' : Option β} {a : α}
    (h : Option.Rel R o o') (ho : o = some a) : ∃ a', o' = some a' ∧ R a a' := by
  cases h with
  | none => cases ho
  | some hR =>
      cases ho
      exact ⟨_, rfl, hR⟩

theorem rel_isSome {α β : Type} {R : α → β → Prop} {o : Option α} {o' : Option β}
    (h : Option.Rel R o o') : o'.isSome = o.isSome := by
  cases h with
  | none => rfl
  | some hR => rfl

/-- Maps whose members come in any order. -/
def MembersReordered : Json → Json → Prop
  | .obj members, .obj members' => members.Perm members' ∧ (members.map (·.1)).Nodup
  | value, value' => value = value'

/-- The same configuration, with the active tracks in any order. -/
structure ConfigReordered (config config' : Json) : Prop where
  tracks : Option.Rel MembersReordered (config.get? "active_tracks") (config'.get? "active_tracks")
  others : ∀ name ≠ "active_tracks", config'.get? name = config.get? name

structure ChallengeReordered (challenge challenge' : Json) : Prop where
  config : Option.Rel ConfigReordered (challenge.get? "config") (challenge'.get? "config")
  others : ∀ name ≠ "config", challenge'.get? name = challenge.get? name

structure ExternalReference.Reordered (e e' : ExternalReference) : Prop where
  captureId : e'.captureId = e.captureId
  height : e'.height = e.height
  timestamp : e'.timestamp = e.timestamp
  digest : e'.digest = e.digest
  hyperparameters : SameRows e.hyperparameters e'.hyperparameters

structure ReferenceIndex.Reordered (i i' : ReferenceIndex) : Prop where
  blockId : i'.blockId = i.blockId
  values : SameRows i.values i'.values
  external : Option.Rel ExternalReference.Reordered i.external i'.external

structure Snapshot.Reordered (s s' : Snapshot) : Prop where
  blockId : s'.blockId = s.blockId
  height : s'.height = s.height
  round : s'.round = s.round
  timestamp : s'.timestamp = s.timestamp
  bundles : s'.bundles.Perm s.bundles
  qualifiers : SameRows s.qualifiers s'.qualifiers
  precommits : SameRows s.precommits s'.precommits
  algorithms : SameRows s.algorithms s'.algorithms
  challenges : ∀ challengeId, Option.Rel ChallengeReordered (s.challenges.lookup challengeId)
    (s'.challenges.lookup challengeId)
  references : Option.Rel SameRows s.selectionReferences s'.selectionReferences
  isScoped : s'.isScoped = s.isScoped

/-- The same data, with every table and list in any order. -/
structure SelectionData.Reordered (data data' : SelectionData) : Prop where
  snapshot : data.snapshot.Reordered data'.snapshot
  binaries : ∃ rows rows' : List Json, data.binaries = some (.arr rows) ∧
    data'.binaries = some (.arr rows') ∧ rows.Perm rows'
  playerId : data'.playerId = data.playerId
  now : data'.now = data.now
  maxAge : data'.maxAge = data.maxAge
  fuelBudget : data'.fuelBudget = data.fuelBudget
  index : Option.Rel ReferenceIndex.Reordered data.index data'.index
  referenceMaxAge : data'.referenceMaxAge = data.referenceMaxAge

/-! ### Candidates -/

variable {s s' : Snapshot} {binaries binaries' : Table String Json} {resource : Resource}

theorem SameRows.rowsOf {t t' : Table String Json} (h : SameRows t t') :
    (Protocol.rowsOf t').Perm (Protocol.rowsOf t) :=
  (Table.entries_perm_of_lookup_eq h).map _

theorem isUsable_reordered (hs : s.Reordered s') (hb : SameRows binaries binaries')
    (challengeId : String) : isUsable s' binaries' challengeId = isUsable s binaries challengeId := by
  funext algorithm
  simp only [isUsable, hs.round, hs.height, hb algorithm.1]

/-- Does the challenge take work of the family? -/
def takesWork (round : ℕ) (resource : Resource) (challenge : Json) : Result Bool := do
  let config ← field challenge "config"
  if (← challengeFamily config) ≠ resource then
    return false
  let activation ← integer ((← field challenge "state").get? "round_active")
    "challenge activation" 1
  if round < activation then
    return false
  return (← field config "active_tracks").truthy

theorem usableAlgorithms_eq (challenge : String × Json) :
    usableAlgorithms s binaries resource challenge = (do
      if ← takesWork s.round resource challenge.2 then
        let usable ← (rowsOf s.algorithms).filterM (isUsable s binaries challenge.1)
        return usable.map (·.1)
      else return []) := by
  unfold usableAlgorithms takesWork
  cases field challenge.2 "config" with
  | error e => rfl
  | ok config =>
      cases hfamily : challengeFamily config with
      | error e => simp [hfamily, bind, Except.bind]
      | ok family =>
          simp only [hfamily, bind, Except.bind]
          split
          · rfl
          · cases field challenge.2 "state" with
            | error e => rfl
            | ok state =>
                simp only
                cases integer (state.get? "round_active") "challenge activation" 1 with
                | error e => rfl
                | ok activation =>
                    simp only
                    split
                    · rfl
                    · cases field config "active_tracks" with
                      | error e => rfl
                      | ok tracks => cases htracks : tracks.truthy <;>
                          simp [htracks, pure, Except.pure]

theorem MembersReordered.truthy {value value' : Json} (h : MembersReordered value value') :
    value'.truthy = value.truthy := by
  unfold MembersReordered at h
  split at h
  next members members' =>
    obtain ⟨hperm, -⟩ := h
    rw [Json.truthy, Json.truthy, decide_eq_decide]
    exact not_congr ⟨fun hnil => by rw [hnil] at hperm; exact hperm.eq_nil,
      fun hnil => by rw [hnil] at hperm; exact hperm.symm.eq_nil⟩
  next => rw [h]

theorem ChallengeReordered.field_config {challenge challenge' config : Json}
    (h : ChallengeReordered challenge challenge') (hconfig : field challenge "config" = .ok config) :
    ∃ config', field challenge' "config" = .ok config' ∧ ConfigReordered config config' := by
  simp only [field, fetch_eq_ok] at hconfig ⊢
  exact rel_some h.config hconfig

theorem ConfigReordered.field_tracks {config config' tracks : Json}
    (h : ConfigReordered config config') (htracks : field config "active_tracks" = .ok tracks) :
    ∃ tracks', field config' "active_tracks" = .ok tracks' ∧ MembersReordered tracks tracks' := by
  simp only [field, fetch_eq_ok] at htracks ⊢
  exact rel_some h.tracks htracks

theorem ConfigReordered.field {config config' : Json} (h : ConfigReordered config config')
    {name : String} (hname : name ≠ "active_tracks") :
    Protocol.field config' name = Protocol.field config name := by
  rw [Protocol.field, Protocol.field, h.others name hname]

theorem takesWork_reordered {round : ℕ} {challenge challenge' : Json} {b : Bool}
    (hchallenge : ChallengeReordered challenge challenge')
    (h : takesWork round resource challenge = .ok b) :
    takesWork round resource challenge' = .ok b := by
  have hstate : field challenge' "state" = field challenge "state" := by
    rw [field, field, hchallenge.others "state" (by decide)]
  simp only [takesWork, bind_eq_ok, hstate] at h ⊢
  obtain ⟨config, hconfig, family, hfamily, h⟩ := h
  obtain ⟨config', hconfig', hrel⟩ := hchallenge.field_config hconfig
  refine ⟨config', hconfig', family, ?_, ?_⟩
  · rwa [challengeFamily, hrel.field (by decide)]
  · split at h
    next hother => rwa [if_pos hother]
    next hfits =>
      rw [if_neg hfits]
      simp only [bind_eq_ok] at h ⊢
      obtain ⟨state, hstate, activation, hactivation, h⟩ := h
      refine ⟨state, hstate, activation, hactivation, ?_⟩
      split at h
      next hlater => rwa [if_pos hlater]
      next hround =>
        rw [if_neg hround]
        simp only [bind_eq_ok, pure_eq_ok] at h ⊢
        obtain ⟨tracks, htracks, rfl⟩ := h
        obtain ⟨tracks', htracks', hmembers⟩ := hrel.field_tracks htracks
        exact ⟨tracks', htracks', hmembers.truthy⟩

theorem usableAlgorithms_reordered (hs : s.Reordered s') (hb : SameRows binaries binaries')
    {challengeId : String} {challenge challenge' : Json} {algorithms : List String}
    (hchallenge : ChallengeReordered challenge challenge')
    (h : usableAlgorithms s binaries resource (challengeId, challenge) = .ok algorithms) :
    ∃ algorithms', usableAlgorithms s' binaries' resource (challengeId, challenge')
      = .ok algorithms' ∧ algorithms.Perm algorithms' := by
  simp only [usableAlgorithms_eq, bind_eq_ok, hs.round, isUsable_reordered hs hb] at h ⊢
  obtain ⟨takes, htakes, h⟩ := h
  have htakes' := takesWork_reordered hchallenge htakes
  cases takes with
  | false => exact ⟨algorithms, ⟨false, htakes', h⟩, .refl _⟩
  | true =>
      rw [if_pos rfl] at h
      simp only [bind_eq_ok, filterM_eq_ok, pure_eq_ok] at h
      obtain ⟨usable, ⟨htested, rfl⟩, rfl⟩ := h
      have hrows := hs.algorithms.rowsOf
      refine ⟨_, ⟨true, htakes', ?_⟩, (hrows.symm.filter _).map _⟩
      rw [if_pos rfl]
      simp only [bind_eq_ok, filterM_eq_ok, pure_eq_ok]
      exact ⟨_, ⟨fun row hrow => htested row (hrows.subset hrow), rfl⟩, rfl⟩

/-- The same challenge with the same algorithms, in any order. -/
structure Candidate.Reordered (c c' : Candidate) : Prop where
  challengeId : c'.challengeId = c.challengeId
  algorithms : c.algorithms.Perm c'.algorithms

/-- Rows that stand for the same challenge. -/
structure RowReordered (row row' : String × Json) : Prop where
  name : row'.1 = row.1
  challenge : ChallengeReordered row.2 row'.2

theorem rows_reordered (hs : s.Reordered s') : List.Forall₂ RowReordered
    ((rowsOf s.challenges).insertionSort fun a b => a.1 ≤ b.1)
    ((rowsOf s'.challenges).insertionSort fun a b => a.1 ≤ b.1) := by
  have hmem {t : Table String Json} {name : String} :
      name ∈ (rowsOf t).map (·.1) ↔ (t.lookup name).isSome = true := by
    rw [rowsOf_names, AList.lookup_isSome, AList.mem_keys]
  refine forall₂_insertionSort ?_ ?_ (fun name => ?_) fun row hrow row' hrow' hname => ?_
  · rw [rowsOf_names]
    exact s.challenges.keys_nodup
  · rw [rowsOf_names]
    exact s'.challenges.keys_nodup
  · rw [hmem, hmem, rel_isSome (hs.challenges name)]
  · obtain ⟨challenge', hlookup, hrel⟩ := rel_some (hs.challenges row.1) (mem_rowsOf.mp hrow)
    rw [hname, mem_rowsOf.mp hrow'] at hlookup
    cases hlookup
    exact ⟨hname.symm, hrel⟩

theorem candidates_reordered (hs : s.Reordered s') (hb : SameRows binaries binaries')
    {found : List Candidate} (h : candidates s binaries resource = .ok found) :
    ∃ found', candidates s' binaries' resource = .ok found' ∧
      List.Forall₂ Candidate.Reordered found found' := by
  simp only [candidates, bind_eq_ok, pure_eq_ok] at h ⊢
  obtain ⟨usable, husable, rfl⟩ := h
  obtain ⟨usable', husable', hrel⟩ := @mapM_rel _ _ _ RowReordered Candidate.Reordered _
    (fun row : String × Json => do
      let algorithms ← usableAlgorithms s' binaries' resource row
      return Candidate.mk row.1 algorithms) _ _ _ (rows_reordered hs) (by
    intro row row' hrow candidate hok
    simp only [bind_eq_ok, pure_eq_ok] at hok ⊢
    obtain ⟨algorithms, halgorithms, rfl⟩ := hok
    obtain ⟨algorithms', halgorithms', hperm⟩ :=
      usableAlgorithms_reordered hs hb hrow.challenge halgorithms
    rw [← hrow.name] at halgorithms'
    exact ⟨_, ⟨algorithms', halgorithms', rfl⟩, hrow.name, hperm⟩) husable
  refine ⟨_, ⟨usable', husable', rfl⟩, List.rel_filter (fun c c' hc => ?_) hrel⟩
  change decide (c.algorithms ≠ []) = true ↔ decide (c'.algorithms ≠ []) = true
  rw [decide_eq_true_iff, decide_eq_true_iff]
  exact not_congr ⟨fun hnil => (hnil ▸ hc.algorithms).nil_eq.symm,
    fun hnil => (hnil ▸ hc.algorithms).eq_nil⟩

/-! ### References -/

theorem SameRows.mapVals {κ α β : Type} [DecidableEq κ] {t t' : Table κ α} (h : SameRows t t')
    (f : κ → α → β) : SameRows (t.mapVals f) (t'.mapVals f) := by
  intro k
  rw [Table.lookup_mapVals, Table.lookup_mapVals, h k]

/-- A snapshot's own index does not show the order of its bundles. -/
theorem references_reordered (hs : s.Reordered s')
    (hdistinct : (s.bundles.map EqualBundle.key).Nodup) :
    (references s).Reordered (references s') := by
  refine ⟨?_, ?_, ?_⟩
  · unfold references
    split <;> split <;> exact hs.blockId
  · cases hkept : s.selectionReferences with
    | none =>
        have hkept' : s'.selectionReferences = none := by
          have hsome := rel_isSome hs.references
          rwa [hkept, Option.isSome_none, Option.isSome_eq_false_iff, Option.isNone_iff_eq_none]
            at hsome
        intro pair
        exact BestOf.unique hdistinct ((references_best hkept' pair).perm hs.bundles)
          (references_best hkept pair)
    | some kept =>
        obtain ⟨kept', hkept', hsame⟩ := rel_some hs.references hkept
        rw [references, references, hkept, hkept']
        exact hsame.mapVals _
  · have hnone (snapshot : Snapshot) : (references snapshot).external = none := by
      unfold references
      split <;> rfl
    rw [hnone, hnone]
    exact .none

variable {data data' : SelectionData} {offer : Offer}

theorem reference_reordered (h : data.Reordered data')
    (hdistinct : (data.snapshot.bundles.map EqualBundle.key).Nodup) :
    data.reference.Reordered data'.reference := by
  unfold SelectionData.reference
  have hrel := h.index
  generalize data.index = index at hrel
  generalize data'.index = index' at hrel
  cases hrel with
  | none => exact references_reordered h.snapshot hdistinct
  | some hrel => exact hrel

theorem checkIndex_reordered {i i' : ReferenceIndex} (hs : s.Reordered s') (hi : i.Reordered i')
    (now maxAge : ℕ) : checkIndex s' i' now maxAge = checkIndex s i now maxAge := by
  unfold checkIndex
  have hrel := hi.external
  generalize i.external = e at hrel
  generalize i'.external = e' at hrel
  cases hrel with
  | none => simp only [hi.blockId, hs.blockId]
  | some hrel => simp only [hrel.height, hrel.timestamp, hrel.digest, hs.height]

theorem parametersOf_reordered {i i' : ReferenceIndex} (hs : s.Reordered s') (hi : i.Reordered i')
    (pair : String × String) (reference : Bundle) :
    parametersOf s' i' pair reference = parametersOf s i pair reference := by
  unfold parametersOf
  have hexternal := hi.external
  have hkept := hs.references
  generalize i.external = e at hexternal
  generalize i'.external = e' at hexternal
  generalize s.selectionReferences = kept at hkept
  generalize s'.selectionReferences = kept' at hkept
  cases hexternal with
  | some hexternal => simp only [hexternal.hyperparameters pair]
  | none =>
      cases hkept with
      | some hkept => simp only [hkept pair]
      | none => simp only [hs.precommits reference.benchmarkId]

theorem proposeTrack_reordered {i i' : ReferenceIndex} (hs : s.Reordered s') (hi : i.Reordered i')
    (algorithmId : String) (least : ℕ) :
    proposeTrack s' i' algorithmId least = proposeTrack s i algorithmId least := by
  funext track
  simp only [proposeTrack, hi.values (algorithmId, track.1), parametersOf_reordered hs hi]

/-! ### The choice -/

variable {counts adoptions : List (String × ℕ)} {challengeTies algorithmTies : List String}
  {challengeId algorithmId : String} {selection : WorkRequests.Selection}

theorem MembersReordered.items {value value' : Json} {members : List (String × Json)}
    (h : MembersReordered value value') (hitems : items value = .ok members) :
    ∃ members', items value' = .ok members' ∧
      members'.insertionSort (fun a b => a.1 ≤ b.1) = members.insertionSort fun a b => a.1 ≤ b.1 := by
  unfold MembersReordered at h
  split at h
  next entries entries' =>
    obtain ⟨hperm, hnodup⟩ := h
    obtain rfl := Except.ok.inj hitems
    exact ⟨_, rfl, (insertionSort_eq_of_perm hperm hnodup).symm⟩
  next =>
    rw [h] at hitems
    exact ⟨members, hitems, rfl⟩

theorem propose_reordered (h : data.Reordered data') (hb : SameRows binaries binaries')
    (hdistinct : (data.snapshot.bundles.map EqualBundle.key).Nodup)
    (hpropose : propose data binaries offer counts challengeTies challengeId adoptions
      algorithmTies algorithmId = .ok selection) :
    propose data' binaries' offer counts challengeTies challengeId adoptions algorithmTies
      algorithmId = .ok selection := by
  have hreference := reference_reordered h hdistinct
  simp only [propose, bind_eq_ok, fetch_eq_ok, pure_eq_ok] at hpropose ⊢
  obtain ⟨challenge, hchallenge, algorithm, halgorithm, config, hconfig, fuel, hfuel, least, hleast,
    u, hcheck, active, hactive, members, hmembers, tracks, htracks, base, hbase, baseValue,
    hbaseValue, baseFee, hbaseFee, eachValue, heachValue, bundleFee, hbundleFee, details, hdetails,
    name, hname, binary, hbinary, rfl⟩ := hpropose
  obtain ⟨challenge', hchallenge', hrel⟩ := rel_some (h.snapshot.challenges challengeId) hchallenge
  obtain ⟨config', hconfig', hrel⟩ := hrel.field_config hconfig
  obtain ⟨active', hactive', hmembersRel⟩ := hrel.field_tracks hactive
  obtain ⟨members', hmembers', hsorted⟩ := hmembersRel.items hmembers
  have hfuel' : fuelOf data'.fuelBudget config' = .ok fuel := by
    rwa [fuelOf, h.fuelBudget, hrel.others _ (by decide)]
  refine ⟨challenge', hchallenge', algorithm, ?_, config', hconfig', fuel, hfuel', least, ?_, u, ?_,
    active', hactive', members', hmembers', tracks, ?_, base, hbase, baseValue, ?_, baseFee, hbaseFee,
    eachValue, ?_, bundleFee, hbundleFee, details, hdetails, name, hname, binary, ?_, ?_⟩
  · rwa [h.snapshot.algorithms algorithmId]
  · rwa [hrel.others _ (by decide)]
  · rwa [checkIndex_reordered h.snapshot hreference, h.now, h.referenceMaxAge]
  · rwa [hsorted, proposeTrack_reordered h.snapshot hreference]
  · rwa [hrel.field (by decide)]
  · rwa [hrel.field (by decide)]
  · rwa [hb algorithmId]
  · have hexternal := hreference.external
    have hblockId := hreference.blockId
    generalize data.reference = i at hexternal hblockId ⊢
    generalize data'.reference = i' at hexternal hblockId ⊢
    obtain ⟨blockId, values, external⟩ := i
    obtain ⟨blockId', values', external'⟩ := i'
    simp only at hexternal hblockId ⊢
    rw [h.snapshot.round, h.snapshot.blockId, h.snapshot.height, h.playerId]
    cases hexternal with
    | none => rfl
    | some hrel => simp only [hblockId, hrel.digest, hrel.height, hrel.captureId, hrel.timestamp]

theorem poolCount_reordered (hs : s.Reordered s') (playerId challengeId : String) :
    poolCount s' playerId challengeId = poolCount s playerId challengeId :=
  Table.total_perm (Table.entries_perm_of_lookup_eq hs.qualifiers)

theorem countsOf_reordered {found found' : List Candidate} (h : data.Reordered data')
    (hfound : List.Forall₂ Candidate.Reordered found found') :
    countsOf data' found' = countsOf data found := by
  unfold countsOf
  induction hfound with
  | nil => rfl
  | cons hc _ ih =>
      rw [List.map_cons, List.map_cons, ih, hc.challengeId, h.playerId,
        poolCount_reordered h.snapshot]

theorem find?_reordered {found found' : List Candidate} {candidate : Candidate} {name : String}
    (hfound : List.Forall₂ Candidate.Reordered found found')
    (h : found.find? (·.challengeId = name) = some candidate) :
    ∃ candidate', found'.find? (·.challengeId = name) = some candidate' ∧
      Candidate.Reordered candidate candidate' := by
  induction hfound with
  | nil => cases h
  | cons hc _ ih =>
      rename_i c c' found found' _
      rw [List.find?_cons] at h ⊢
      rw [hc.challengeId]
      split at h
      · cases h
        exact ⟨c', rfl, hc⟩
      · exact ih h

theorem readAdoption_reordered (hs : s.Reordered s') :
    readAdoption s' = readAdoption s := by
  funext algorithmId
  rw [readAdoption, readAdoption, hs.algorithms algorithmId]

/-- The order of tables and lists has no influence on what is selected. -/
theorem choose_reordered {observation : Json} {pick : ℕ → List String → String}
    (hvalid : validateSnapshot observation = .ok data.snapshot) (h : data.Reordered data')
    (hchoose : choose data pick offer = .ok (some selection)) :
    choose data' pick offer = .ok (some selection) := by
  have hdistinct := (validateSnapshot_valid hvalid ∅).distinct
  obtain ⟨binaries, found, candidate, adoptions, hready, hne, hcandidate, hadoptions, hpropose⟩ :=
    chooseFrom_eq_some.mp (chooseFrom_of_choose.mp hchoose)
  obtain ⟨rows, rows', hrows, hrows', hperm⟩ := h.binaries
  have hindexed := hready.indexed
  rw [hrows] at hindexed
  obtain ⟨binaries', hindexed', hb⟩ := index_perm hperm hindexed
  obtain ⟨found', hfound', hrel⟩ := candidates_reordered h.snapshot hb hready.candidates
  have hcounts := countsOf_reordered h hrel
  have hties : Protocol.challengeTies data' found' = Protocol.challengeTies data found := by
    rw [Protocol.challengeTies, Protocol.challengeTies, hcounts]
  obtain ⟨candidate', hcandidate', hc⟩ := find?_reordered hrel hcandidate
  have hmem := (find?_key_eq_some (candidates_spec hready.candidates).2.1).mp hcandidate
  have hnodup := ((candidates_spec hready.candidates).2.2 candidate hmem.1).2.1
  have hsorted : candidate'.algorithms.insertionSort (· ≤ ·)
      = candidate.algorithms.insertionSort (· ≤ ·) :=
    (@insertionSort_eq_of_perm _ _ id _ _ _ hc.algorithms (by rwa [List.map_id])).symm
  refine chooseFrom_of_choose.mpr (chooseFrom_eq_some.mpr ⟨binaries', found', candidate', adoptions,
    ⟨?_, ?_, ?_, ?_, ?_, hfound'⟩, ?_, ?_, ?_, ?_⟩)
  · rw [h.snapshot.isScoped, rel_isSome h.index]
    exact hready.network
  · rw [h.maxAge]
    exact hready.maxAge
  · rw [h.playerId]
    exact hready.player
  · rw [h.snapshot.timestamp, h.now, h.maxAge]
    exact hready.fresh
  · rw [hrows']
    exact hindexed'
  · rintro rfl
    cases hrel
    exact hne rfl
  · rwa [hties]
  · rwa [hsorted, readAdoption_reordered h.snapshot]
  · rw [hties, hcounts]
    exact propose_reordered h hb hdistinct hpropose

/-! ## The rule -/

/-- What is selected follows the rule, whatever is tied can be drawn, and orders do not
matter. -/
theorem selection_rule {observation : Json} {pick : ℕ → List String → String}
    (hvalid : validateSnapshot observation = .ok data.snapshot) (hindex : data.OwnIndex)
    (hpick : Draws pick) (h : choose data pick offer = .ok (some selection)) :
    ∃ binaries, index data.binaries "algorithm_id" "algorithm binaries" = .ok binaries ∧
      (∃ challengeId algorithmId terms, Fewest data binaries offer.resource challengeId ∧
        MostAdopted data.snapshot binaries challengeId algorithmId ∧
        Proposes data offer challengeId algorithmId selection terms) ∧
      (∀ challengeId algorithmId, Fewest data binaries offer.resource challengeId →
        MostAdopted data.snapshot binaries challengeId algorithmId →
        Proposable data binaries offer challengeId algorithmId → ∃ draw, Draws draw ∧
          ∃ selection' terms, choose data draw offer = .ok (some selection') ∧
            Proposes data offer challengeId algorithmId selection' terms) ∧
      ∀ data', data.Reordered data' → choose data' pick offer = .ok (some selection) := by
  obtain ⟨binaries, found, -, -, hready, -⟩ := chooseFrom_eq_some.mp (chooseFrom_of_choose.mp h)
  obtain ⟨binaries', challengeId, algorithmId, terms, hindexed, hfewest, hmost, hterms⟩ :=
    choose_follows hvalid hindex hpick h
  obtain rfl := Except.ok.inj (hready.indexed.symm.trans hindexed)
  refine ⟨binaries, hindexed, ⟨challengeId, algorithmId, terms, hfewest, hmost, hterms⟩, ?_, ?_⟩
  · intro challengeId algorithmId hfewest hmost hproposable
    exact choose_drawn hvalid hindex hready hfewest hmost hproposable
  · intro data' hreordered
    exact choose_reordered hvalid hreordered h

end Protocol

/-! ### A round with three challenges -/

namespace ThreeChallenges

open Protocol

/-- `a` has no active tracks.  The pool has one bundle in `b`, whose parameters are those of
the algorithm, and one in `c`, which allows less fuel. -/
def observation : Json :=
  let state : Json := .obj [("block_confirmed", .int 7)]
  let pool (n : ℤ) : Json := .obj [("pool", .int n)]
  let track (value : Json) : Json := .obj [("t", value)]
  let algorithm (id challenge : String) (qualifiers : Json) : Json := .obj [
    ("block_data", .obj [("adoption", .str "10"),
      ("num_qualifiers_by_track_by_player", qualifiers)]),
    ("details", .obj [("challenge_id", .str challenge), ("name", .str id)]), ("id", .str id),
    ("state", .obj [("banned", .bool false), ("round_active", .int 1)])]
  let challenge (id : String) (qualifiers tracks : Json) (fuel : ℤ) : Json := .obj [
    ("block_data", .obj [("num_qualifiers_by_track", qualifiers)]),
    ("config", .obj [("active_tracks", tracks), ("base_fee", .str "3"),
      ("max_fuel_budget", .int fuel), ("min_num_bundles", .int 2), ("per_nonce_fee", .str "5"),
      ("type", .str "cpu")]),
    ("id", .str id), ("state", .obj [("round_active", .int 1)])]
  let binary (id : String) : Json := .obj [("algorithm_id", .str id),
    ("details", .obj [("compile_success", .bool true), ("download_url", .str "https://tig")]),
    ("state", state)]
  let precommit (id algorithm challenge : String) : Json := .obj [("benchmark_id", .str id),
    ("details", .obj [("block_started", .int 6), ("compute_type", .str "aws_t3"),
      ("fuel_budget", .int 1), ("hyperparameters", .null), ("num_bundles", .int 1)]),
    ("settings", .obj [("algorithm_id", .str algorithm), ("challenge_id", .str challenge),
      ("player_id", .str "pool"), ("track_id", .str "t")]), ("state", state)]
  let benchmark (id : String) : Json := .obj [("details", .obj
      [("average_quality_by_bundle", .arr [.int 5]), ("num_active_bundles", .int 1),
        ("stopped", .bool false)]), ("id", .str id), ("state", state)]
  let proof (id : String) : Json := .obj [("benchmark_id", .str id),
    ("details", .obj [("block_active", .int 8)]), ("state", state)]
  let details : Json := .obj [("height", .int 9), ("num_active", .obj [("benchmark", .int 2),
      ("challenge", .int 3), ("code", .int 3), ("opow", .int 1)]),
    ("prev_block_id", .str "before"), ("round", .int 1), ("timestamp", .int 100)]
  let data : Json := .obj [("active_ids", .obj [("benchmark", .arr [.str "x", .str "y"]),
    ("challenge", .arr [.str "a", .str "b", .str "c"]),
    ("code", .arr [.str "a1", .str "b1", .str "c1"]), ("opow", .arr [.str "pool"])])]
  .obj [
    ("algorithms", .obj [("binarys", .arr [binary "a1", binary "b1", binary "c1"]),
      ("codes", .arr [algorithm "a1" "a" (.obj []), algorithm "b1" "b" (track (pool 1)),
        algorithm "c1" "c" (track (pool 1))])]),
    ("challenges", .obj [("challenges", .arr [challenge "a" (.obj []) (.obj []) 9,
      challenge "b" (track (.int 1)) (track (.obj [])) 9,
      challenge "c" (track (.int 1)) (track (.obj [])) 4])]),
    ("end", .obj [("block",
      .obj [("config", .obj []), ("details", details), ("id", .str "block")])]),
    ("opow", .obj [("opow", .arr [.obj [
      ("block_data", .obj [("num_qualifiers_by_challenge_by_track",
        .obj [("b", track (.int 1)), ("c", track (.int 1))])]), ("player_id", .str "pool")]])]),
    ("players", .obj [("pool", .obj [
      ("benchmarks", .arr [benchmark "x", benchmark "y"]), ("frauds", .arr []),
      ("precommits", .arr [precommit "x" "b1" "b", precommit "y" "c1" "c"]),
      ("proofs", .arr [proof "x", proof "y"])])]),
    ("start", .obj [("block", .obj [("config", .obj []), ("data", data), ("details", details),
      ("id", .str "block")])])]

def snapshot : Snapshot :=
  (validateSnapshot observation).toOption.getD ⟨"", "", 0, 0, 0, [], ∅, ∅, ∅, ∅, none, false⟩

def data : SelectionData where
  snapshot := snapshot
  binaries := (observation.get? "algorithms").bind (·.get? "binarys")
  playerId := "pool"
  now := 110
  maxAge := 120
  fuelBudget := some (.int 6)
  index := some (references snapshot)
  referenceMaxAge := 1800

def binaries : Table String Json :=
  (index data.binaries "algorithm_id" "algorithm binaries").toOption.getD ∅

def offer : Offer where
  resource := .CPU
  computeType := "aws_t3"
  workers := 1
  family := by decide
  capacity := by decide

/-- The first of what is tied. -/
def first (_ : ℕ) (ties : List String) : String :=
  ties.headD ""

def selection : WorkRequests.Selection :=
  ((choose data first offer).toOption.getD none).getD ⟨0, .null, .null, 0, 0⟩

/-- The challenge that is proposed. -/
def chosen (selection : WorkRequests.Selection) : Option Json :=
  member selection.payload "settings" "challenge_id"

def bestOfB : Bundle := ⟨"x", 0, "pool", "b", "b1", "t", 5⟩

theorem lookup_getD {t : Table String Json} {name : String} (h : (t.lookup name).isSome = true) :
    t.lookup name = some ((t.lookup name).getD .null) := by
  obtain ⟨value, hvalue⟩ := Option.isSome_iff_exists.mp h
  rw [hvalue, Option.getD_some]

/-- What evaluation says of the three challenges. -/
theorem evaluated : validateSnapshot observation = .ok snapshot ∧
    index data.binaries "algorithm_id" "algorithm binaries" = .ok binaries ∧
    ((choose data first offer).toOption.getD none).isSome = true ∧
    Takes snapshot .CPU "a" ∧ Usable snapshot binaries "a" "a1" ∧
    (snapshot.challenges.lookup "c").isSome = true ∧
    member ((snapshot.challenges.lookup "c").getD .null) "config" "max_fuel_budget"
      = some (.int 4) := by
  refine ⟨eq_ok_getD (by decide +kernel), eq_ok_getD (by decide +kernel), by decide +kernel, ?_, ?_,
    by decide +kernel, by decide +kernel⟩
  · exact ⟨_, 1, lookup_getD (by decide +kernel), by decide +kernel, by decide +kernel, le_refl _,
      by decide +kernel⟩
  · exact ⟨_, _, 1, lookup_getD (by decide +kernel), by decide +kernel, by decide +kernel,
      by decide +kernel, le_refl _, by decide +kernel, lookup_getD (by decide +kernel),
      by decide +kernel⟩

theorem validates : validateSnapshot observation = .ok snapshot := evaluated.1

theorem indexes : index data.binaries "algorithm_id" "algorithm binaries" = .ok binaries :=
  evaluated.2.1

theorem selects : choose data first offer = .ok (some selection) := by
  have hsome := evaluated.2.2.1
  unfold selection
  cases h : choose data first offer with
  | error e =>
      rw [h] at hsome
      cases hsome
  | ok out =>
      rw [h] at hsome
      cases out with
      | none => cases hsome
      | some selection => rfl

theorem first_draws : Draws first := by
  intro n ties hne
  obtain ⟨name, rest, rfl⟩ := List.exists_cons_of_ne_nil hne
  exact List.mem_cons_self ..

theorem ownIndex : data.OwnIndex := by
  rintro index ⟨⟩ -
  rfl

theorem selection_rule_three : ∃ binaries challengeId algorithmId terms,
    index data.binaries "algorithm_id" "algorithm binaries" = .ok binaries ∧
      Fewest data binaries offer.resource challengeId ∧
      MostAdopted data.snapshot binaries challengeId algorithmId ∧
      Proposes data offer challengeId algorithmId selection terms := by
  obtain ⟨binaries, hindexed, ⟨challengeId, algorithmId, terms, hfewest, hmost, hterms⟩, -, -⟩ :=
    selection_rule validates ownIndex first_draws selects
  exact ⟨binaries, challengeId, algorithmId, terms, hindexed, hfewest, hmost, hterms⟩

theorem takes : Takes snapshot .CPU "a" := evaluated.2.2.2.1

theorem usable : Usable snapshot binaries "a" "a1" := evaluated.2.2.2.2.1

/-- What is proposed for `c` would have more fuel than its configuration allows. -/
theorem never_c {draw : ℕ → List String → String} {selection : WorkRequests.Selection}
    (hdraw : Draws draw) (h : choose data draw offer = .ok (some selection)) :
    chosen selection ≠ some (.str "c") := by
  intro hchosen
  obtain ⟨binaries', challengeId, algorithmId, terms, -, -, -, hterms⟩ :=
    choose_follows validates ownIndex hdraw h
  have hname : chosen selection = some (.str challengeId) := by
    rw [chosen, hterms.payload]
    rfl
  obtain rfl : "c" = challengeId := Json.str.inj (Option.some.inj (hchosen.symm.trans hname))
  obtain ⟨challenge, hchallenge, hconfig⟩ := hterms.config
  obtain ⟨-, -, -, -, -, hrow, hfour⟩ := evaluated
  obtain rfl := Option.some.inj (hchallenge.symm.trans (lookup_getD hrow))
  have hmost := (member_eq_some hconfig).symm.trans hfour
  rw [hterms.mostFuel.1] at hmost
  have hfuel : Json.int 6 = .int terms.fuel := hterms.fuel
  have hle := hterms.mostFuel.2
  have hsix := Json.int.inj hfuel
  have hfour' := Json.int.inj (Option.some.inj hmost)
  omega

/-- The pool has no qualifiers in `a`, which is active and has an algorithm; `b` is selected
with one, and null parameters although there is a best bundle; `c` is tied with `b`, and
never selected. -/
theorem selection_rule_fails : validateSnapshot observation = .ok snapshot ∧
    index data.binaries "algorithm_id" "algorithm binaries" = .ok binaries ∧
    choose data first offer = .ok (some selection) ∧
    chosen selection = some (.str "b") ∧
    (Takes snapshot .CPU "a" ∧ Usable snapshot binaries "a" "a1" ∧
      poolCount snapshot "pool" "a" < poolCount snapshot "pool" "b") ∧
    (Best snapshot.bundles ("b1", "t") bestOfB ∧
      (selection.payload.get? "track_settings").bind (member · "t" "hyperparameters")
        = some .null) ∧
    selection.evidence.get? "challenge_ties" = some (.arr [.str "b", .str "c"]) ∧
    ∀ draw selection', Draws draw → choose data draw offer = .ok (some selection') →
      chosen selection' ≠ some (.str "c") :=
  ⟨validates, indexes, selects, by decide +kernel, ⟨takes, usable, by decide +kernel⟩,
    ⟨⟨by decide +kernel, by decide +kernel, by decide +kernel⟩, by decide +kernel⟩,
    by decide +kernel, fun _ _ => never_c⟩

end ThreeChallenges

end TigPool
