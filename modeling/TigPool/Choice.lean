/-
# `TigPool.Choice` — the declared rule of selection

What `choose` selects, said without its loops: the challenge that fits the offer and in
which the pool has the fewest qualifiers, the most adopted of its algorithms that can be
run, and for each of its active tracks the parameters of the best reference.  Which of
several equals it is, is left to the random choice; the order in which tables and lists
are gone through has no influence.
-/
import TigPool.Selection
import TigPool.BundleCredit
import TigPool.Reading
import TigPool.Basis.Traversal

namespace TigPool

open Basis

namespace Protocol

open EqualBundle

/-! ## The best reference -/

/-- The algorithm and the track of a bundle. -/
def pairOf (bundle : Bundle) : String × String :=
  (bundle.algorithmId, bundle.trackId)

/-- The first bundle of an algorithm and track: by quality, then benchmark, then index. -/
structure Best (bundles : List Bundle) (pair : String × String) (best : Bundle) : Prop where
  mem : best ∈ bundles
  fits : pairOf best = pair
  first : ∀ other ∈ bundles, pairOf other = pair → precedes best other

/-- The best one, or none where there is none. -/
def BestOf (bundles : List Bundle) (pair : String × String) : Option Bundle → Prop
  | some best => Best bundles pair best
  | none => ∀ bundle ∈ bundles, pairOf bundle ≠ pair

variable {bundles bundles' : List Bundle} {pair : String × String}

theorem precedes_refl (a : Bundle) : precedes a a := (precedes_total a a).elim id id

/-- Bundles that precede each other are at one place. -/
theorem precedes_antisymm {a b : Bundle} (hab : precedes a b) (hba : precedes b a) :
    key a = key b := by
  rcases hab with hlt | ⟨heq, hab⟩
  · rcases hba with hlt' | ⟨heq', -⟩
    · exact absurd hlt (lt_asymm hlt')
    · exact absurd heq' hlt.ne
  · rcases hba with hlt' | ⟨-, hba⟩
    · exact absurd heq hlt'.ne
    · rcases hab with hlt | ⟨hid, hindex⟩
      · rcases hba with hlt' | ⟨hid', -⟩
        · exact absurd hlt (lt_asymm hlt')
        · exact absurd hid' hlt.ne'
      · rcases hba with hlt' | ⟨-, hindex'⟩
        · exact absurd hid hlt'.ne'
        · exact Prod.ext hid (le_antisymm hindex hindex')

theorem BestOf.perm {best : Option Bundle} (hperm : bundles.Perm bundles')
    (h : BestOf bundles pair best) : BestOf bundles' pair best := by
  cases best with
  | none => exact fun bundle hbundle => h bundle (hperm.symm.subset hbundle)
  | some best =>
      exact ⟨hperm.subset h.mem, h.fits, fun other hother => h.first other (hperm.symm.subset hother)⟩

theorem BestOf.unique {best best' : Option Bundle} (hdistinct : (bundles.map key).Nodup)
    (h : BestOf bundles pair best) (h' : BestOf bundles pair best') : best = best' := by
  cases best with
  | none =>
      cases best' with
      | none => rfl
      | some best' => exact absurd h'.fits (h best' h'.mem)
  | some best =>
      cases best' with
      | none => exact absurd h.fits (h' best h.mem)
      | some best' =>
          have hkey := precedes_antisymm (h.first best' h'.mem h'.fits)
            (h'.first best h.mem h.fits)
          rw [List.inj_on_of_nodup_map hdistinct h.mem h'.mem hkey]

/-- One more bundle is read. -/
def addReference (values : Table (String × String) Bundle) (bundle : Bundle) :
    Table (String × String) Bundle :=
  if (values.lookup (pairOf bundle)).all fun previous => ¬ precedes previous bundle then
    AList.insert (pairOf bundle) bundle values
  else values

theorem addReference_best {values : Table (String × String) Bundle} {bundle : Bundle}
    (h : ∀ pair, BestOf bundles pair (values.lookup pair)) (pair : String × String) :
    BestOf (bundles ++ [bundle]) pair ((addReference values bundle).lookup pair) := by
  have hbefore := h pair
  by_cases hpair : pairOf bundle = pair
  · subst hpair
    unfold addReference
    cases hprevious : values.lookup (pairOf bundle) with
    | none =>
        rw [hprevious] at hbefore
        rw [if_pos (by simp), AList.lookup_insert]
        refine ⟨by simp, rfl, fun other hother hother' => ?_⟩
        rcases List.mem_append.mp hother with hmem | hmem
        · exact absurd hother' (hbefore other hmem)
        · rw [List.mem_singleton.mp hmem]
          exact precedes_refl _
    | some previous =>
        rw [hprevious] at hbefore
        by_cases hprecedes : precedes previous bundle
        · rw [if_neg (by simp [hprecedes]), hprevious]
          refine ⟨by simp [hbefore.mem], hbefore.fits, fun other hother hother' => ?_⟩
          rcases List.mem_append.mp hother with hmem | hmem
          · exact hbefore.first other hmem hother'
          · rw [List.mem_singleton.mp hmem]
            exact hprecedes
        · rw [if_pos (by simp [hprecedes]), AList.lookup_insert]
          have hbetter := (precedes_total previous bundle).resolve_left hprecedes
          refine ⟨by simp, rfl, fun other hother hother' => ?_⟩
          rcases List.mem_append.mp hother with hmem | hmem
          · exact precedes_trans hbetter (hbefore.first other hmem hother')
          · rw [List.mem_singleton.mp hmem]
            exact precedes_refl _
  · have hsame : (addReference values bundle).lookup pair = values.lookup pair := by
      unfold addReference
      split
      · exact AList.lookup_insert_ne (Ne.symm hpair)
      · rfl
    rw [hsame]
    cases hvalue : values.lookup pair with
    | none =>
        rw [hvalue] at hbefore
        intro other hother
        rcases List.mem_append.mp hother with hmem | hmem
        · exact hbefore other hmem
        · rw [List.mem_singleton.mp hmem]
          exact hpair
    | some best =>
        rw [hvalue] at hbefore
        refine ⟨by simp [hbefore.mem], hbefore.fits, fun other hother hother' => ?_⟩
        rcases List.mem_append.mp hother with hmem | hmem
        · exact hbefore.first other hmem hother'
        · rw [List.mem_singleton.mp hmem] at hother'
          exact absurd hother' hpair

/-- The index of a full snapshot holds the best reference of every algorithm and track. -/
theorem references_best {snapshot : Snapshot} (h : snapshot.selectionReferences = none)
    (pair : String × String) :
    BestOf snapshot.bundles pair ((references snapshot).values.lookup pair) := by
  have hfold : ∀ (rest done : List Bundle) (values : Table (String × String) Bundle),
      (∀ pair, BestOf done pair (values.lookup pair)) →
      BestOf (done ++ rest) pair ((rest.foldl addReference values).lookup pair) := by
    intro rest
    induction rest with
    | nil =>
        intro done values hdone
        rw [List.append_nil]
        exact hdone pair
    | cons bundle rest ih =>
        intro done values hdone
        have hnext := ih (done ++ [bundle]) (addReference values bundle) (addReference_best hdone)
        rwa [List.append_assoc] at hnext
  have hall := hfold snapshot.bundles [] ∅ fun _ => by
    rintro bundle ⟨⟩
  unfold references
  rw [h]
  exact hall

/-! ### Compact captures -/

theorem validateBlock_references {observation : Json} {scope : Option String} {snapshot : Snapshot}
    (h : validateBlock observation scope = .ok snapshot) : snapshot.selectionReferences = none := by
  simp only [validateBlock, bind_eq_ok, require_eq_ok, exists_const, pure_eq_ok] at h
  obtain ⟨header, -, response, -, value, -, codes, -, response', -, value', -, challengeRows,
    -, response'', -, value'', -, opowRows, -, algorithms, -, challenges, -, opow, -, players, -,
    records, -, -, -, parts, -, qualifiers, -, rfl⟩ := h
  rfl

theorem checkReference_spec {precommits : Table String Json}
    {best : Table (String × String) (Bundle × Json)} {bundle : Bundle} {u : Unit}
    (h : checkReference precommits best bundle = .ok u) :
    ∃ reference, best.lookup (pairOf bundle) = some reference ∧ precedes reference.1 bundle := by
  simp only [checkReference, bind_eq_ok, fetch_eq_ok, require_eq_ok, exists_const] at h
  obtain ⟨reference, hreference, hprecedes, -⟩ := h
  exact ⟨reference, hreference, hprecedes⟩

/-- The references that a compact capture keeps are no worse than the bundles it keeps. -/
theorem validateSnapshot_kept {observation : Json} {snapshot : Snapshot}
    {kept : Table (String × String) (Bundle × Json)}
    (h : validateSnapshot observation = .ok snapshot)
    (hkept : snapshot.selectionReferences = some kept) : ∀ bundle ∈ snapshot.bundles,
      ∃ reference, kept.lookup (pairOf bundle) = some reference ∧ precedes reference.1 bundle := by
  obtain ⟨view, scope, block, hblock, rfl | ⟨best, hchecked, rfl⟩⟩ := validateSnapshot_block h
  · rw [validateBlock_references hblock] at hkept
    cases hkept
  · obtain rfl := Option.some.inj hkept
    exact fun bundle hbundle => checkReference_spec (hchecked bundle hbundle)

/-! ## What can be chosen -/

variable {snapshot : Snapshot} {binaries : Table String Json} {resource : Resource}
  {challengeId algorithmId : String}

/-- An algorithm of the challenge that can be run: active, not banned, and compiled. -/
def Usable (snapshot : Snapshot) (binaries : Table String Json)
    (challengeId algorithmId : String) : Prop :=
  ∃ algorithm binary, ∃ activation : ℤ, snapshot.algorithms.lookup algorithmId = some algorithm ∧
    member algorithm "details" "challenge_id" = some (.str challengeId) ∧
    member algorithm "state" "banned" = some (.bool false) ∧
    member algorithm "state" "round_active" = some (.int activation) ∧
    1 ≤ activation ∧ activation ≤ snapshot.round ∧
    binaries.lookup algorithmId = some binary ∧
    member binary "details" "compile_success" = some (.bool true)

def familyName : Resource → String
  | .CPU => "cpu"
  | .GPU => "gpu"

/-- An active challenge of the family. -/
def Takes (snapshot : Snapshot) (resource : Resource) (challengeId : String) : Prop :=
  ∃ challenge, ∃ activation : ℤ, snapshot.challenges.lookup challengeId = some challenge ∧
    member challenge "config" "type" = some (.str (familyName resource)) ∧
    member challenge "state" "round_active" = some (.int activation) ∧
    1 ≤ activation ∧ activation ≤ snapshot.round

/-- A challenge that has an active track. -/
def HasTracks (snapshot : Snapshot) (challengeId : String) : Prop :=
  ∃ challenge tracks, snapshot.challenges.lookup challengeId = some challenge ∧
    member challenge "config" "active_tracks" = some tracks ∧ tracks.truthy = true

theorem usable_iff {algorithm : Json}
    (hrow : snapshot.algorithms.lookup algorithmId = some algorithm) :
    Usable snapshot binaries challengeId algorithmId ↔
      member algorithm "details" "challenge_id" = some (.str challengeId) ∧
      member algorithm "state" "banned" = some (.bool false) ∧
      (∃ i : ℤ, member algorithm "state" "round_active" = some (.int i) ∧ 1 ≤ i ∧
        i ≤ snapshot.round) ∧
      ∃ binary, binaries.lookup algorithmId = some binary ∧
        member binary "details" "compile_success" = some (.bool true) := by
  constructor
  · rintro ⟨_, binary, i, hrow', hname, hbanned, hactivation, hone, hround, hbinary⟩
    obtain rfl := Option.some.inj (hrow.symm.trans hrow')
    exact ⟨hname, hbanned, ⟨i, hactivation, hone, hround⟩, binary, hbinary⟩
  · rintro ⟨hname, hbanned, ⟨i, hactivation, hone, hround⟩, binary, hbinary⟩
    exact ⟨algorithm, binary, i, hrow, hname, hbanned, hactivation, hone, hround, hbinary⟩

theorem isUsable_iff {algorithm : Json} {b : Bool}
    (hrow : snapshot.algorithms.lookup algorithmId = some algorithm)
    (h : isUsable snapshot binaries challengeId (algorithmId, algorithm) = .ok b) :
    b = true ↔ Usable snapshot binaries challengeId algorithmId := by
  rw [usable_iff hrow]
  simp only [isUsable, field, bind_eq_ok, fetch_eq_ok] at h
  obtain ⟨details, hdetails, name, hname, h⟩ := h
  rw [member_eq_some hdetails, hname]
  split at h
  next hother =>
    obtain rfl := pure_eq_ok.mp h
    exact iff_of_false nofun fun hu => hother (Option.some.inj hu.1)
  next hchallenge =>
    simp only [bind_eq_ok, fetch_eq_ok] at h
    obtain ⟨state, hstate, status, hbanned, h⟩ := h
    rw [member_eq_some hstate, member_eq_some hstate, hbanned]
    split at h
    next banned =>
      rw [pure_bind] at h
      split at h
      next hyes =>
        obtain rfl := pure_eq_ok.mp h
        refine iff_of_false nofun ?_
        rintro ⟨-, hno, -⟩
        cases hyes
        cases hno
      next hallowed =>
      simp only [bind_eq_ok, fetch_eq_ok] at h
      obtain ⟨activation, hactivation, h⟩ := h
      rw [hactivation]
      split at h
      next hnull =>
        obtain rfl := pure_eq_ok.mp h
        refine iff_of_false nofun ?_
        rintro ⟨-, -, ⟨i, hi, -⟩, -⟩
        rw [hnull] at hi
        cases hi
      next =>
        simp only [bind_eq_ok, integer_eq_ok] at h
        obtain ⟨n, ⟨i, hi, hone, -, rfl⟩, h⟩ := h
        obtain rfl := Option.some.inj hi
        split at h
        next hlater =>
          obtain rfl := pure_eq_ok.mp h
          refine iff_of_false nofun ?_
          rintro ⟨-, -, ⟨j, hj, -, hround⟩, -⟩
          cases hj
          omega
        next hround =>
          simp only [bind_eq_ok, fetch_eq_ok] at h
          obtain ⟨binary, hbinary, compiled, hcompiled, success, hsuccess, h⟩ := h
          split at h
          next hfailed =>
            obtain rfl := pure_eq_ok.mp h
            refine iff_of_false nofun ?_
            rintro ⟨-, -, -, binary', hbinary', hsuccess'⟩
            obtain rfl := Option.some.inj (hbinary.symm.trans hbinary')
            rw [member_eq_some hcompiled, hsuccess] at hsuccess'
            exact hfailed (Option.some.inj hsuccess')
          next hok =>
            simp only [bind_eq_ok, fetch_eq_ok, pure_eq_ok] at h
            obtain ⟨_, -, _, -, _, -, _, -, rfl⟩ := h
            refine iff_of_true rfl ⟨congrArg some (not_not.mp hchallenge), ?_, ?_, binary,
              hbinary, ?_⟩
            · simpa using hallowed
            · exact ⟨i, rfl, hone, by omega⟩
            · rw [member_eq_some hcompiled, hsuccess, not_not.mp hok]
    next => cases h

theorem mem_rowsOf {t : Table String Json} {row : String × Json} :
    row ∈ rowsOf t ↔ t.lookup row.1 = some row.2 := by
  rw [← Table.mem_entries_iff, rowsOf, List.mem_map]
  constructor
  · rintro ⟨e, he, rfl⟩
    exact he
  · intro h
    exact ⟨⟨row.1, row.2⟩, h, rfl⟩

theorem rowsOf_names {t : Table String Json} : (rowsOf t).map (·.1) = t.keys := by
  rw [rowsOf, List.map_map]
  rfl

theorem challengeFamily_eq_ok {config : Json} {family : Resource}
    (h : challengeFamily config = .ok family) :
    config.get? "type" = some (.str (familyName family)) := by
  simp only [challengeFamily, field, bind_eq_ok, fetch_eq_ok] at h
  obtain ⟨value, hvalue, h⟩ := h
  split at h
  · obtain rfl := pure_eq_ok.mp h
    exact hvalue
  · obtain rfl := pure_eq_ok.mp h
    exact hvalue
  · cases h

theorem familyName_inj {family family' : Resource} (h : familyName family = familyName family') :
    family = family' := by
  cases family <;> cases family' <;> first | rfl | exact absurd h (by decide)

/-- The algorithms of a challenge that are kept are those that can be run, if the challenge
takes work. -/
theorem usableAlgorithms_spec {challenge : Json} {algorithms : List String}
    (hrow : snapshot.challenges.lookup challengeId = some challenge)
    (h : usableAlgorithms snapshot binaries resource (challengeId, challenge) = .ok algorithms) :
    (∀ algorithmId, algorithmId ∈ algorithms ↔ Takes snapshot resource challengeId ∧
      HasTracks snapshot challengeId ∧ Usable snapshot binaries challengeId algorithmId) ∧
      algorithms.Nodup := by
  have hnone {P : Prop} (hnot : ¬ P) : (∀ algorithmId, algorithmId ∈ ([] : List String) ↔ P ∧
      HasTracks snapshot challengeId ∧ Usable snapshot binaries challengeId algorithmId) ∧
      ([] : List String).Nodup :=
    ⟨fun a => iff_of_false (List.not_mem_nil) fun hp => hnot hp.1, List.nodup_nil⟩
  simp only [usableAlgorithms, field, bind_eq_ok, fetch_eq_ok] at h
  obtain ⟨config, hconfig, family, hfamily, h⟩ := h
  have htype := challengeFamily_eq_ok hfamily
  split at h
  next hother =>
    obtain rfl := pure_eq_ok.mp h
    refine hnone ?_
    rintro ⟨challenge', _, hrow', htype', -⟩
    obtain rfl := Option.some.inj (hrow.symm.trans hrow')
    rw [member_eq_some hconfig, htype] at htype'
    exact hother (familyName_inj (by simpa using htype'))
  next hfits =>
    simp only [bind_eq_ok, fetch_eq_ok, integer_eq_ok] at h
    obtain ⟨state, hstate, activation, ⟨i, hi, hone, -, rfl⟩, h⟩ := h
    have hactivation := (member_eq_some hstate).trans hi
    split at h
    next hlater =>
      obtain rfl := pure_eq_ok.mp h
      refine hnone ?_
      rintro ⟨challenge', j, hrow', -, hj, -, hround⟩
      obtain rfl := Option.some.inj (hrow.symm.trans hrow')
      cases hactivation.symm.trans hj
      omega
    next hround =>
      have htakes : Takes snapshot resource challengeId := by
        refine ⟨challenge, i, hrow, ?_, hactivation, hone, by omega⟩
        rw [member_eq_some hconfig, htype, not_not.mp hfits]
      simp only [bind_eq_ok, fetch_eq_ok] at h
      obtain ⟨tracks, htracks, h⟩ := h
      have hmember := (member_eq_some hconfig).trans htracks
      split at h
      next hempty =>
        obtain rfl := pure_eq_ok.mp h
        refine ⟨fun a => iff_of_false List.not_mem_nil ?_, List.nodup_nil⟩
        rintro ⟨-, ⟨challenge', tracks', hrow', htracks', htrue⟩, -⟩
        obtain rfl := Option.some.inj (hrow.symm.trans hrow')
        obtain rfl := Option.some.inj (hmember.symm.trans htracks')
        rw [hempty] at htrue
        cases htrue
      next hsome =>
        simp only [bind_eq_ok, filterM_eq_ok, pure_eq_ok] at h
        obtain ⟨usable, ⟨htested, rfl⟩, rfl⟩ := h
        constructor
        · intro algorithmId
          simp only [List.mem_map, List.mem_filter]
          constructor
          · rintro ⟨row, ⟨hmem, hyes⟩, rfl⟩
            obtain ⟨b, hb⟩ := htested row hmem
            rw [hb] at hyes
            exact ⟨htakes, ⟨challenge, tracks, hrow, hmember, by simpa using hsome⟩,
              (isUsable_iff (mem_rowsOf.mp hmem) hb).mp hyes⟩
          · rintro ⟨-, -, husable⟩
            obtain ⟨algorithm, -, -, halgorithm, -⟩ := id husable
            have hmem : (algorithmId, algorithm) ∈ rowsOf snapshot.algorithms :=
              mem_rowsOf.mpr halgorithm
            obtain ⟨b, hb⟩ := htested _ hmem
            refine ⟨_, ⟨hmem, ?_⟩, rfl⟩
            rw [hb]
            exact (isUsable_iff halgorithm hb).mpr husable
        · have hnames : ((rowsOf snapshot.algorithms).map (·.1)).Nodup := by
            rw [rowsOf_names]
            exact snapshot.algorithms.keys_nodup
          exact hnames.sublist (List.filter_sublist.map _)

/-- A challenge that an offer of the family can be given work in. -/
def Fits (snapshot : Snapshot) (binaries : Table String Json) (resource : Resource)
    (challengeId : String) : Prop :=
  Takes snapshot resource challengeId ∧ HasTracks snapshot challengeId ∧
    ∃ algorithmId, Usable snapshot binaries challengeId algorithmId

/-- The candidates are the challenges that fit, each once, with its algorithms. -/
theorem candidates_spec {found : List Candidate}
    (h : candidates snapshot binaries resource = .ok found) :
    (∀ challengeId, challengeId ∈ found.map (·.challengeId) ↔
      Fits snapshot binaries resource challengeId) ∧
    (found.map (·.challengeId)).Nodup ∧
    ∀ candidate ∈ found, (∀ algorithmId, algorithmId ∈ candidate.algorithms ↔
        Fits snapshot binaries resource candidate.challengeId ∧
          Usable snapshot binaries candidate.challengeId algorithmId) ∧
      candidate.algorithms.Nodup ∧ candidate.algorithms ≠ [] := by
  simp only [candidates, bind_eq_ok, pure_eq_ok] at h
  obtain ⟨usable, husable, rfl⟩ := h
  have hrows : ∀ row ∈ (rowsOf snapshot.challenges).insertionSort (fun a b => a.1 ≤ b.1),
      snapshot.challenges.lookup row.1 = some row.2 := fun row hrow =>
    mem_rowsOf.mp ((List.mem_insertionSort _).mp hrow)
  -- Each candidate was read from its row.
  have hread : ∀ candidate ∈ usable, ∃ challenge,
      snapshot.challenges.lookup candidate.challengeId = some challenge ∧
      usableAlgorithms snapshot binaries resource (candidate.challengeId, challenge)
        = .ok candidate.algorithms := by
    intro candidate hcandidate
    obtain ⟨row, hrow, hok⟩ := mem_of_mapM_ok husable candidate hcandidate
    simp only [bind_eq_ok, pure_eq_ok] at hok
    obtain ⟨algorithms, halgorithms, rfl⟩ := hok
    exact ⟨row.2, hrows row hrow, halgorithms⟩
  have hspec : ∀ candidate ∈ usable, (∀ algorithmId, algorithmId ∈ candidate.algorithms ↔
      Takes snapshot resource candidate.challengeId ∧ HasTracks snapshot candidate.challengeId ∧
        Usable snapshot binaries candidate.challengeId algorithmId) ∧
      candidate.algorithms.Nodup := by
    intro candidate hcandidate
    obtain ⟨challenge, hchallenge, hok⟩ := hread candidate hcandidate
    exact usableAlgorithms_spec hchallenge hok
  have hnames : usable.map (·.challengeId)
      = ((rowsOf snapshot.challenges).insertionSort fun a b => a.1 ≤ b.1).map (·.1) := by
    refine map_of_mapM_ok (fun row candidate hok => ?_) husable
    simp only [bind_eq_ok, pure_eq_ok] at hok
    obtain ⟨algorithms, -, rfl⟩ := hok
    rfl
  refine ⟨fun challengeId => ?_, ?_, fun candidate hcandidate => ?_⟩
  · rw [List.mem_map]
    constructor
    · rintro ⟨candidate, hcandidate, rfl⟩
      obtain ⟨hmem, hsome⟩ := List.mem_filter.mp hcandidate
      obtain ⟨algorithmId, hfirst⟩ := List.exists_mem_of_ne_nil _ (of_decide_eq_true hsome)
      obtain ⟨htakes, htracks, hfirst⟩ := ((hspec candidate hmem).1 algorithmId).mp hfirst
      exact ⟨htakes, htracks, algorithmId, hfirst⟩
    · rintro ⟨htakes, htracks, algorithmId, hfirst⟩
      obtain ⟨challenge, -, hchallenge, -⟩ := id htakes
      have hrow : (challengeId, challenge) ∈
          (rowsOf snapshot.challenges).insertionSort (fun a b => a.1 ≤ b.1) :=
        (List.mem_insertionSort _).mpr (mem_rowsOf.mpr hchallenge)
      obtain ⟨candidate, hmem, hok⟩ := exists_of_mapM_ok husable hrow
      simp only [bind_eq_ok, pure_eq_ok] at hok
      obtain ⟨algorithms, halgorithms, rfl⟩ := hok
      have hin := ((usableAlgorithms_spec hchallenge halgorithms).1 algorithmId).mpr
        ⟨htakes, htracks, hfirst⟩
      exact ⟨_, List.mem_filter.mpr ⟨hmem, decide_eq_true (List.ne_nil_of_mem hin)⟩, rfl⟩
  · have hnodup : (usable.map (·.challengeId)).Nodup := by
      rw [hnames, ((List.perm_insertionSort _ _).map _).nodup_iff, rowsOf_names]
      exact snapshot.challenges.keys_nodup
    exact hnodup.sublist (List.filter_sublist.map _)
  · obtain ⟨hmem, hsome⟩ := List.mem_filter.mp hcandidate
    obtain ⟨halgorithms, hnodup⟩ := hspec candidate hmem
    refine ⟨fun algorithmId => (halgorithms algorithmId).trans ⟨?_, ?_⟩, hnodup,
      of_decide_eq_true hsome⟩
    · rintro ⟨htakes, htracks, husable⟩
      exact ⟨⟨htakes, htracks, algorithmId, husable⟩, husable⟩
    · rintro ⟨⟨htakes, htracks, -⟩, husable⟩
      exact ⟨htakes, htracks, husable⟩

/-! ## Ties -/

variable {counts : List (String × ℕ)} {name : String}

theorem mem_tiesAt {best : ℕ} : name ∈ tiesAt best counts ↔ (name, best) ∈ counts := by
  simp only [tiesAt, List.mem_map, List.mem_filter, decide_eq_true_eq]
  constructor
  · rintro ⟨count, ⟨hmem, rfl⟩, rfl⟩
    exact hmem
  · intro h
    exact ⟨_, ⟨h, rfl⟩, rfl⟩

theorem tiesAt_ne_nil {best : ℕ} (h : best ∈ counts.map (·.2)) : tiesAt best counts ≠ [] := by
  obtain ⟨count, hcount, rfl⟩ := List.mem_map.mp h
  exact List.ne_nil_of_mem (mem_tiesAt.mpr hcount)

/-- The names with the least count. -/
theorem mem_tiesAt_least : name ∈ tiesAt ((counts.map (·.2)).foldr min (counts.headD ("", 0)).2)
    counts ↔ ∃ n, (name, n) ∈ counts ∧ ∀ other ∈ counts, n ≤ other.2 := by
  rw [mem_tiesAt]
  have hle : ∀ other ∈ counts, (counts.map (·.2)).foldr min (counts.headD ("", 0)).2 ≤ other.2 :=
    fun other hother => foldr_min_le (List.mem_map_of_mem hother)
  constructor
  · exact fun h => ⟨_, h, hle⟩
  · rintro ⟨n, hn, hleast⟩
    have hhead : (counts.headD ("", 0)).2 ∈ counts.map (·.2) := by
      cases counts with
      | nil => cases hn
      | cons first rest => exact List.mem_cons_self ..
    obtain ⟨other, hother, heq⟩ := List.mem_map.mp (foldr_min_mem hhead)
    rwa [le_antisymm (hle _ hn) (heq ▸ hleast other hother)]

/-- The names with the greatest count. -/
theorem mem_tiesAt_most : name ∈ tiesAt ((counts.map (·.2)).foldr max 0) counts ↔
    ∃ n, (name, n) ∈ counts ∧ ∀ other ∈ counts, other.2 ≤ n := by
  rw [mem_tiesAt]
  have hle : ∀ other ∈ counts, other.2 ≤ (counts.map (·.2)).foldr max 0 :=
    fun other hother => le_foldr_max (List.mem_map_of_mem hother)
  constructor
  · exact fun h => ⟨_, h, hle⟩
  · rintro ⟨n, hn, hmost⟩
    have hmem := @foldr_max_mem _ _ (counts.map (·.2)) 0
      (List.ne_nil_of_mem (List.mem_map_of_mem hn)) fun x _ => Nat.zero_le x
    obtain ⟨other, hother, heq⟩ := List.mem_map.mp hmem
    rwa [le_antisymm (heq ▸ hmost other hother) (hle _ hn)]

/-! ## Proposals -/

/-- The parameters that are copied for an algorithm and track: those of the best bundle of
the snapshot; in a compact capture, those of the reference it kept, which no bundle of the
snapshot surpasses; or those that a separate capture of the network holds.  Where there is
no reference, they are null. -/
def Copied (data : SelectionData) (pair : String × String) (parameters : Json) : Prop :=
  match data.reference.external, data.snapshot.selectionReferences with
  | some external, _ => match data.reference.values.lookup pair with
      | some _ => external.hyperparameters.lookup pair = some parameters
      | none => parameters = .null
  | none, some kept => match kept.lookup pair with
      | some reference => parameters = reference.2 ∧
          ∀ bundle ∈ data.snapshot.bundles, pairOf bundle = pair → precedes reference.1 bundle
      | none => parameters = .null ∧ BestOf data.snapshot.bundles pair none
  | none, none => ∃ best, BestOf data.snapshot.bundles pair best ∧ match best with
      | some best => ∃ precommit, data.snapshot.precommits.lookup best.benchmarkId
          = some precommit ∧ member precommit "details" "hyperparameters" = some parameters
      | none => parameters = .null

/-- The bundles that a track needs at least: its own number, or that of its challenge. -/
def Configured (config settings : Json) (bundles : ℕ) : Prop :=
  ∃ least : ℕ, config.get? "min_num_bundles" = some (.int least) ∧
    (settings.get? "min_num_bundles").getD (.int least) = .int bundles ∧ 1 ≤ bundles

/-- What a proposal is made of. -/
structure Terms where
  config : Json
  /-- The active tracks of the challenge. -/
  active : List (String × Json)
  tracks : List Track
  fuel : ℕ
  mostFuel : ℕ
  baseFee : ℕ
  bundleFee : ℕ
  /-- The track with most bundles. -/
  largest : Track

structure Proposes (data : SelectionData) (offer : Offer) (challengeId algorithmId : String)
    (selection : WorkRequests.Selection) (terms : Terms) : Prop where
  config : ∃ challenge, data.snapshot.challenges.lookup challengeId = some challenge ∧
    challenge.get? "config" = some terms.config
  active : terms.config.get? "active_tracks" = some (.obj terms.active)
  payload : selection.payload = WorkRequests.proposal data.playerId data.snapshot.blockId
    challengeId algorithmId offer.computeType (.obj (terms.tracks.map (Track.settings terms.fuel)))
  names : (terms.tracks.map (·.trackId)).Perm (terms.active.map (·.1))
  tracks : ∀ track ∈ terms.tracks, ∃ settings, (track.trackId, settings) ∈ terms.active ∧
    Configured terms.config settings track.bundles ∧
    Copied data (algorithmId, track.trackId) track.parameters
  fuel : data.fuelBudget.getD (.int terms.mostFuel) = .int terms.fuel
  mostFuel : terms.config.get? "max_fuel_budget" = some (.int terms.mostFuel) ∧
    terms.fuel ≤ terms.mostFuel
  baseFee : ∃ value, terms.config.get? "base_fee" = some value ∧
    precise value "base fee" = .ok terms.baseFee
  bundleFee : ∃ value, terms.config.get? "per_nonce_fee" = some value ∧
    precise value "per-bundle fee" = .ok terms.bundleFee
  largest : terms.largest ∈ terms.tracks ∧
    ∀ track ∈ terms.tracks, track.bundles ≤ terms.largest.bundles
  collateral : selection.baseCollateral = 10 * tig * terms.largest.bundles
  fee : selection.maxSubmissionFee = terms.baseFee + terms.bundleFee * terms.largest.bundles
  round : selection.creationRound = data.snapshot.round

/-- An index of the snapshot itself is the one that `references` makes. -/
def SelectionData.OwnIndex (data : SelectionData) : Prop :=
  ∀ index, data.index = some index → index.external = none → index = references data.snapshot

theorem SelectionData.OwnIndex.eq {data : SelectionData} (h : data.OwnIndex)
    (hown : data.reference.external = none) : data.reference = references data.snapshot := by
  unfold SelectionData.reference at hown ⊢
  cases hindex : data.index with
  | none => rfl
  | some index =>
      rw [hindex] at hown
      exact h index hindex hown

/-- What a reference leads to is copied; where there is none, nothing is. -/
theorem copied {data : SelectionData} {observation parameters : Json} {pair : String × String}
    (hvalid : validateSnapshot observation = .ok data.snapshot) (hindex : data.OwnIndex)
    (h : match data.reference.values.lookup pair with
      | some reference => parametersOf data.snapshot data.reference pair reference = .ok parameters
      | none => parameters = .null) : Copied data pair parameters := by
  unfold Copied
  cases hexternal : data.reference.external with
  | some external =>
      simp only
      cases hlookup : data.reference.values.lookup pair with
      | none =>
          rw [hlookup] at h
          exact h
      | some reference =>
          simp only [hlookup, parametersOf, hexternal, fetch_eq_ok] at h
          exact h
  | none =>
      have hreference := hindex.eq hexternal
      cases hkept : data.snapshot.selectionReferences with
      | some kept =>
          have hvalues : data.reference.values.lookup pair = (kept.lookup pair).map (·.1) := by
            rw [hreference, references, hkept]
            exact Table.lookup_mapVals
          have hbetter := validateSnapshot_kept hvalid hkept
          simp only
          cases hlookup : kept.lookup pair with
          | none =>
              rw [hvalues, hlookup] at h
              refine ⟨h, fun bundle hbundle hpair => ?_⟩
              obtain ⟨reference, hsome, -⟩ := hbetter bundle hbundle
              rw [hpair, hlookup] at hsome
              cases hsome
          | some reference =>
              rw [hvalues, hlookup] at h
              simp only [Option.map_some, parametersOf, hexternal, hkept, bind_eq_ok, fetch_eq_ok,
                hlookup, Option.some.injEq, pure_eq_ok, exists_eq_left'] at h
              refine ⟨h.symm, fun bundle hbundle hpair => ?_⟩
              obtain ⟨reference', hsome, hprecedes⟩ := hbetter bundle hbundle
              rw [hpair, hlookup] at hsome
              obtain rfl := Option.some.inj hsome
              exact hprecedes
      | none =>
          have hbest := references_best hkept pair
          rw [← hreference] at hbest
          refine ⟨_, hbest, ?_⟩
          cases hlookup : data.reference.values.lookup pair with
          | none =>
              rw [hlookup] at h
              exact h
          | some best =>
              simp only [hlookup, parametersOf, hexternal, hkept, field, bind_eq_ok,
                fetch_eq_ok] at h
              obtain ⟨precommit, hprecommit, details, hdetails, hparameters⟩ := h
              exact ⟨precommit, hprecommit, (member_eq_some hdetails).trans hparameters⟩

theorem proposeTrack_spec {data : SelectionData} {observation : Json} {least : ℕ} {config : Json}
    {entry : String × Json} {track : Track}
    (hvalid : validateSnapshot observation = .ok data.snapshot) (hindex : data.OwnIndex)
    (hleast : config.get? "min_num_bundles" = some (.int least))
    (h : proposeTrack data.snapshot data.reference algorithmId least entry = .ok track) :
    track.trackId = entry.1 ∧ Configured config entry.2 track.bundles ∧
      Copied data (algorithmId, entry.1) track.parameters := by
  simp only [proposeTrack, bind_eq_ok, integer_eq_ok, Option.some.injEq] at h
  obtain ⟨-, -, n, ⟨i, hi, hone, hnonneg, rfl⟩, h⟩ := h
  have hconfigured : Configured config entry.2 i.toNat :=
    ⟨least, hleast, by rw [hi, Int.toNat_of_nonneg hnonneg], by omega⟩
  split at h
  next hnone =>
    obtain rfl := pure_eq_ok.mp h
    refine ⟨rfl, hconfigured, copied hvalid hindex ?_⟩
    rw [hnone]
  next reference hreference =>
    simp only [bind_eq_ok, pure_eq_ok] at h
    obtain ⟨parameters, hparameters, rfl⟩ := h
    refine ⟨rfl, hconfigured, copied hvalid hindex ?_⟩
    rw [hreference]
    exact hparameters

/-- The base collateral is that of the greatest count. -/
theorem collateral_base {counts : List ℕ} (hpos : ∀ n ∈ counts, 1 ≤ n) {value : Multiplier}
    {base amount : ℕ} (h : collateral (counts.map fun n : ℕ => .int n) value = .ok (base, amount)) :
    counts ≠ [] ∧ base = 10 * tig * counts.foldr max 0 := by
  simp only [collateral, bind_eq_ok, require_eq_ok, exists_const, pure_eq_ok, Prod.mk.injEq] at h
  obtain ⟨⟨hne, -⟩, -, rfl, -⟩ := h
  refine ⟨fun hnil => hne (by rw [hnil]; rfl), ?_⟩
  have hcounts : (counts.map fun n : ℕ => Json.int n).filterMap bundleCount = counts := by
    rw [List.filterMap_map]
    refine (List.filterMap_congr fun n hn => ?_).trans List.filterMap_some
    simp [bundleCount, Nat.ne_of_gt (hpos n hn)]
  rw [hcounts]
  rfl

/-- What is proposed for a challenge and an algorithm follows the rule for proposals. -/
theorem propose_proposes {data : SelectionData} {observation : Json} {offer : Offer}
    {counts adoptions : List (String × ℕ)} {challengeTies algorithmTies : List String}
    {selection : WorkRequests.Selection}
    (hvalid : validateSnapshot observation = .ok data.snapshot) (hindex : data.OwnIndex)
    (h : propose data binaries offer counts challengeTies challengeId adoptions algorithmTies
      algorithmId = .ok selection) :
    ∃ terms, Proposes data offer challengeId algorithmId selection terms := by
  simp only [propose, field, bind_eq_ok, fetch_eq_ok, pure_eq_ok] at h
  obtain ⟨challenge, hchallenge, algorithm, -, config, hconfig, fuel, hfuel, least, hleast, -, -,
    active, hactive, members, hmembers, tracks, htracks, ⟨base, amount⟩, hcollateral, baseValue,
    hbaseValue, baseFee, hbaseFee, eachValue, heachValue, bundleFee, hbundleFee, details, -, name,
    -, binary, -, rfl⟩ := h
  obtain ⟨i, hi, hone, hnonneg, rfl⟩ := integer_eq_ok.mp hleast
  have hleast : config.get? "min_num_bundles" = some (.int i.toNat) := by
    rw [hi, Int.toNat_of_nonneg hnonneg]
  obtain rfl : active = .obj members := by
    cases active with
    | obj value => rw [Except.ok.inj hmembers]
    | _ => cases hmembers
  have hspec : ∀ track ∈ tracks, ∃ settings, (track.trackId, settings) ∈ members ∧
      Configured config settings track.bundles ∧
      Copied data (algorithmId, track.trackId) track.parameters := by
    intro track htrack
    obtain ⟨entry, hentry, hok⟩ := mem_of_mapM_ok htracks track htrack
    obtain ⟨hname, hconfigured, hcopied⟩ := proposeTrack_spec hvalid hindex hleast hok
    have hmem := (List.mem_insertionSort _).mp hentry
    rw [hname]
    exact ⟨entry.2, hmem, hconfigured, hcopied⟩
  have hnames : tracks.map (·.trackId)
      = (members.insertionSort fun a b => a.1 ≤ b.1).map (·.1) :=
    map_of_mapM_ok (fun entry track hok => (proposeTrack_spec hvalid hindex hleast hok).1) htracks
  simp only [fuelOf, bind_eq_ok, require_eq_ok, exists_const, pure_eq_ok] at hfuel
  obtain ⟨most, hmost, fuel', hfuel', hle, rfl⟩ := hfuel
  obtain ⟨m, hm, -, hmnonneg, rfl⟩ := integer_eq_ok.mp hmost
  obtain ⟨f, hf, -, hfnonneg, rfl⟩ := integer_eq_ok.mp hfuel'
  rw [Int.toNat_of_nonneg hmnonneg] at hf
  obtain ⟨hne, hbase⟩ := @collateral_base (tracks.map (·.bundles)) (fun n hn => by
    obtain ⟨track, htrack, rfl⟩ := List.mem_map.mp hn
    obtain ⟨settings, -, ⟨-, -, -, hpos⟩, -⟩ := hspec track htrack
    exact hpos) _ _ _ (by rw [List.map_map]; exact hcollateral)
  obtain ⟨largest, hlargest, hmax⟩ := List.mem_map.mp
    (@foldr_max_mem _ _ (tracks.map (·.bundles)) 0 hne fun n _ => Nat.zero_le n)
  refine ⟨⟨config, members, tracks, f.toNat, m.toNat, baseFee, bundleFee, largest⟩,
    { config := ⟨challenge, hchallenge, hconfig⟩
      active := hactive
      payload := rfl
      names := ?_
      tracks := hspec
      fuel := ?_
      mostFuel := ⟨?_, hle⟩
      baseFee := ⟨baseValue, hbaseValue, hbaseFee⟩
      bundleFee := ⟨eachValue, heachValue, hbundleFee⟩
      largest := ⟨hlargest, fun track htrack => ?_⟩
      collateral := ?_
      fee := ?_
      round := rfl }⟩
  · rw [hnames]
    exact (List.perm_insertionSort _ _).map _
  · rw [Int.toNat_of_nonneg hmnonneg, Int.toNat_of_nonneg hfnonneg]
    exact Option.some.inj hf
  · rw [hm, Int.toNat_of_nonneg hmnonneg]
  · rw [hmax]
    exact le_foldr_max (List.mem_map_of_mem htrack)
  · rw [hbase, ← hmax]
  · rw [hmax]

/-! ## Adoption -/

/-- The adoption of an algorithm, as its record says. -/
def Adopted (snapshot : Snapshot) (algorithmId : String) (units : ℕ) : Prop :=
  ∃ algorithm value, snapshot.algorithms.lookup algorithmId = some algorithm ∧
    member algorithm "block_data" "adoption" = some value ∧
    precise value "algorithm adoption" = .ok units

theorem Adopted.unique {n m : ℕ} (h : Adopted snapshot algorithmId n)
    (h' : Adopted snapshot algorithmId m) : n = m := by
  obtain ⟨algorithm, value, hrow, hvalue, hn⟩ := h
  obtain ⟨algorithm', value', hrow', hvalue', hm⟩ := h'
  obtain rfl := Option.some.inj (hrow.symm.trans hrow')
  obtain rfl := Option.some.inj (hvalue.symm.trans hvalue')
  exact Except.ok.inj (hn.symm.trans hm)

theorem precise_of_isDigits {value : Json} (h : isDigits value = true) (label : String) :
    ∃ n, precise value label = .ok n := by
  cases value with
  | str s =>
      simp only [precise, bind_eq_ok, require_eq_ok, exists_const, pure_eq_ok]
      exact ⟨_, h, rfl⟩
  | _ => cases h

theorem validateBlock_adopted {observation : Json} {scope : Option String}
    (h : validateBlock observation scope = .ok snapshot) {algorithm : Json}
    (hrow : snapshot.algorithms.lookup algorithmId = some algorithm) :
    ∃ n, Adopted snapshot algorithmId n := by
  simp only [validateBlock, bind_eq_ok, require_eq_ok, exists_const, pure_eq_ok] at h
  obtain ⟨header, -, response, -, value, -, codes, -, response', -, value', -, challengeRows,
    -, response'', -, value'', -, opowRows, -, algorithms, -, challenges, -, opow, -, players, -,
    records, -, -, -, parts, -, qualifiers, hqualifiers, rfl⟩ := h
  simp only [readQualifiers, bind_eq_ok] at hqualifiers
  obtain ⟨rows, hrows, -⟩ := hqualifiers
  have hrow : algorithms.lookup algorithmId = some algorithm := hrow
  obtain ⟨_, -, hread⟩ := @exists_of_mapM_ok _ _ _ _ _ _ hrows (algorithmId, algorithm)
    (mem_rowsOf.mpr hrow)
  simp only [algorithmQualifiers, field, bind_eq_ok, fetch_eq_ok, require_eq_ok,
    exists_const] at hread
  obtain ⟨blockData, hblockData, -, -, adoption, hadoption, hdigits, -⟩ := hread
  obtain ⟨n, hn⟩ := precise_of_isDigits hdigits "algorithm adoption"
  exact ⟨n, algorithm, adoption, hrow, (member_eq_some hblockData).trans hadoption, hn⟩

/-- Every algorithm of a validated snapshot has an adoption. -/
theorem validateSnapshot_adopted {observation : Json}
    (h : validateSnapshot observation = .ok snapshot) {algorithm : Json}
    (hrow : snapshot.algorithms.lookup algorithmId = some algorithm) :
    ∃ n, Adopted snapshot algorithmId n := by
  obtain ⟨view, scope, block, hblock, rfl | ⟨best, -, rfl⟩⟩ := validateSnapshot_block h
  · exact validateBlock_adopted hblock hrow
  · obtain ⟨n, hn⟩ := validateBlock_adopted hblock hrow
    exact ⟨n, hn⟩

/-! ## The choice -/

section

variable {data : SelectionData} {offer : Offer} {found : List Candidate}
  {pick : ℕ → List String → String} {selection : WorkRequests.Selection}

/-- The checks before anything is chosen, and the candidates. -/
structure Ready (data : SelectionData) (offer : Offer) (binaries : Table String Json)
    (found : List Candidate) : Prop where
  network : data.snapshot.isScoped = false ∨ data.index.isSome = true
  maxAge : 1 ≤ data.maxAge
  player : data.playerId ≠ ""
  fresh : data.snapshot.timestamp ≤ data.now + 5 ∧ data.now ≤ data.maxAge + data.snapshot.timestamp
  indexed : index data.binaries "algorithm_id" "algorithm binaries" = .ok binaries
  candidates : candidates data.snapshot binaries offer.resource = .ok found

def countsOf (data : SelectionData) (found : List Candidate) : List (String × ℕ) :=
  found.map fun c => (c.challengeId, poolCount data.snapshot data.playerId c.challengeId)

def challengeTies (data : SelectionData) (found : List Candidate) : List String :=
  tiesAt (((countsOf data found).map (·.2)).foldr min ((countsOf data found).headD ("", 0)).2)
    (countsOf data found)

def readAdoption (snapshot : Snapshot) (algorithmId : String) : Result (String × ℕ) := do
  let algorithm ← fetch (snapshot.algorithms.lookup algorithmId) (.malformed "algorithms")
  let adoption ← precise (← field (← field algorithm "block_data") "adoption")
    "algorithm adoption"
  return (algorithmId, adoption)

def algorithmTies (adoptions : List (String × ℕ)) : List String :=
  tiesAt ((adoptions.map (·.2)).foldr max 0) adoptions

/-- Something is selected exactly when all of this is so. -/
theorem chooseFrom_eq_some : chooseFrom data pick offer = .ok (some selection) ↔
    ∃ binaries found candidate adoptions, Ready data offer binaries found ∧ found ≠ [] ∧
      found.find? (·.challengeId = pick 0 (challengeTies data found)) = some candidate ∧
      (candidate.algorithms.insertionSort (· ≤ ·)).mapM (readAdoption data.snapshot)
        = .ok adoptions ∧
      propose data binaries offer (countsOf data found) (challengeTies data found)
        (pick 0 (challengeTies data found)) adoptions (algorithmTies adoptions)
        (pick 1 (algorithmTies adoptions)) = .ok selection := by
  simp only [chooseFrom, bind_eq_ok, require_eq_ok, exists_const]
  constructor
  · rintro ⟨hnetwork, hage, hplayer, hfresh, binaries, hbinaries, found, hfound, h⟩
    split at h
    · cases h
    next hne =>
      simp only [bind_eq_ok, fetch_eq_ok, pure_eq_ok, Option.some.injEq] at h
      obtain ⟨candidate, hcandidate, adoptions, hadoptions, _, hpropose, rfl⟩ := h
      exact ⟨binaries, found, candidate, adoptions,
        ⟨hnetwork, hage, hplayer, hfresh, hbinaries, hfound⟩, hne, hcandidate, hadoptions, hpropose⟩
  · rintro ⟨binaries, found, candidate, adoptions, hready, hne, hcandidate, hadoptions, hpropose⟩
    refine ⟨hready.network, hready.maxAge, hready.player, hready.fresh, binaries, hready.indexed,
      found, hready.candidates, ?_⟩
    rw [if_neg hne]
    simp only [bind_eq_ok, fetch_eq_ok, pure_eq_ok, Option.some.injEq]
    exact ⟨candidate, hcandidate, adoptions, hadoptions, selection, hpropose, rfl⟩

/-! ### What the ties are -/

/-- A challenge that fits, and in which the pool has the fewest qualifiers. -/
def Fewest (data : SelectionData) (binaries : Table String Json) (resource : Resource)
    (challengeId : String) : Prop :=
  Fits data.snapshot binaries resource challengeId ∧
    ∀ other, Fits data.snapshot binaries resource other →
      poolCount data.snapshot data.playerId challengeId ≤ poolCount data.snapshot data.playerId other

/-- One of the most adopted algorithms that can be run for the challenge. -/
def MostAdopted (snapshot : Snapshot) (binaries : Table String Json)
    (challengeId algorithmId : String) : Prop :=
  Usable snapshot binaries challengeId algorithmId ∧ ∃ n, Adopted snapshot algorithmId n ∧
    ∀ other m, Usable snapshot binaries challengeId other → Adopted snapshot other m → m ≤ n

theorem mem_challengeTies (h : candidates data.snapshot binaries offer.resource = .ok found) :
    challengeId ∈ challengeTies data found ↔ Fewest data binaries offer.resource challengeId := by
  obtain ⟨hfits, -, -⟩ := candidates_spec h
  have hcount {name : String} {n : ℕ} : (name, n) ∈ countsOf data found ↔
      Fits data.snapshot binaries offer.resource name ∧
        n = poolCount data.snapshot data.playerId name := by
    rw [← hfits, countsOf, List.mem_map, List.mem_map]
    constructor
    · rintro ⟨candidate, hcandidate, heq⟩
      obtain ⟨rfl, rfl⟩ := Prod.mk.inj heq
      exact ⟨⟨candidate, hcandidate, rfl⟩, rfl⟩
    · rintro ⟨⟨candidate, hcandidate, rfl⟩, rfl⟩
      exact ⟨candidate, hcandidate, rfl⟩
  rw [challengeTies, mem_tiesAt_least]
  constructor
  · rintro ⟨n, hn, hleast⟩
    obtain ⟨hfit, rfl⟩ := hcount.mp hn
    exact ⟨hfit, fun other hother => hleast (other, _) (hcount.mpr ⟨hother, rfl⟩)⟩
  · rintro ⟨hfit, hleast⟩
    refine ⟨_, hcount.mpr ⟨hfit, rfl⟩, fun other hother => ?_⟩
    obtain ⟨hother, heq⟩ := hcount.mp hother
    rw [heq]
    exact hleast other.1 hother

theorem readAdoption_eq_ok {snapshot : Snapshot} {algorithmId : String} {adoption : String × ℕ} :
    readAdoption snapshot algorithmId = .ok adoption ↔
      adoption.1 = algorithmId ∧ Adopted snapshot algorithmId adoption.2 := by
  simp only [readAdoption, field, bind_eq_ok, fetch_eq_ok, pure_eq_ok]
  constructor
  · rintro ⟨algorithm, hrow, blockData, hblockData, value, hvalue, n, hn, rfl⟩
    exact ⟨rfl, algorithm, value, hrow, (member_eq_some hblockData).trans hvalue, hn⟩
  · rintro ⟨rfl, algorithm, value, hrow, hvalue, hn⟩
    obtain ⟨blockData, hblockData, hvalue⟩ := Option.bind_eq_some_iff.mp hvalue
    exact ⟨algorithm, hrow, blockData, hblockData, value, hvalue, _, hn, rfl⟩

theorem mem_algorithmTies {snapshot : Snapshot} {algorithms : List String}
    {adoptions : List (String × ℕ)}
    (halgorithms : ∀ algorithmId, algorithmId ∈ algorithms ↔
      Usable snapshot binaries challengeId algorithmId)
    (h : (algorithms.insertionSort (· ≤ ·)).mapM (readAdoption snapshot) = .ok adoptions) :
    algorithmId ∈ algorithmTies adoptions ↔
      MostAdopted snapshot binaries challengeId algorithmId := by
  have hadopted {name : String} {n : ℕ} : (name, n) ∈ adoptions ↔
      Usable snapshot binaries challengeId name ∧ Adopted snapshot name n := by
    rw [← halgorithms]
    constructor
    · intro hmem
      obtain ⟨name', hname, hok⟩ := mem_of_mapM_ok h _ hmem
      obtain ⟨rfl, hn⟩ := readAdoption_eq_ok.mp hok
      exact ⟨(List.mem_insertionSort _).mp hname, hn⟩
    · rintro ⟨hname, hn⟩
      obtain ⟨adoption, hmem, hok⟩ := exists_of_mapM_ok h ((List.mem_insertionSort _).mpr hname)
      obtain ⟨rfl, hm⟩ := readAdoption_eq_ok.mp hok
      rwa [hn.unique hm]
  rw [algorithmTies, mem_tiesAt_most]
  constructor
  · rintro ⟨n, hn, hmost⟩
    obtain ⟨husable, hn⟩ := hadopted.mp hn
    exact ⟨husable, n, hn, fun other m hother hm => hmost (other, m) (hadopted.mpr ⟨hother, hm⟩)⟩
  · rintro ⟨husable, n, hn, hmost⟩
    refine ⟨n, hadopted.mpr ⟨husable, hn⟩, fun other hother => ?_⟩
    obtain ⟨hother, hm⟩ := hadopted.mp hother
    exact hmost _ _ hother hm

theorem challengeTies_ne_nil (h : found ≠ []) : challengeTies data found ≠ [] := by
  obtain ⟨first, rest, rfl⟩ := List.exists_cons_of_ne_nil h
  exact tiesAt_ne_nil (foldr_min_mem (List.mem_cons_self ..))

theorem algorithmTies_ne_nil {adoptions : List (String × ℕ)} (h : adoptions ≠ []) :
    algorithmTies adoptions ≠ [] :=
  tiesAt_ne_nil (foldr_max_mem (fun hnil => h (List.map_eq_nil_iff.mp hnil)) fun n _ => Nat.zero_le n)

/-- A random choice takes one of the names it is given. -/
def Draws (pick : ℕ → List String → String) : Prop :=
  ∀ n ties, ties ≠ [] → pick n ties ∈ ties

/-- What is selected follows the rule. -/
theorem choose_follows {observation : Json}
    (hvalid : validateSnapshot observation = .ok data.snapshot) (hindex : data.OwnIndex)
    (hpick : Draws pick) (h : choose data pick offer = .ok (some selection)) :
    ∃ binaries challengeId algorithmId terms,
      index data.binaries "algorithm_id" "algorithm binaries" = .ok binaries ∧
      Fewest data binaries offer.resource challengeId ∧
      MostAdopted data.snapshot binaries challengeId algorithmId ∧
      Proposes data offer challengeId algorithmId selection terms := by
  obtain ⟨binaries, found, candidate, adoptions, hready, hne, hcandidate, hadoptions, hpropose⟩ :=
    chooseFrom_eq_some.mp (chooseFrom_of_choose.mp h)
  obtain ⟨hfits, hnodup, hcandidates⟩ := candidates_spec hready.candidates
  obtain ⟨hmem, hid⟩ := (find?_key_eq_some hnodup).mp hcandidate
  obtain ⟨halgorithms, -, hsome⟩ := hcandidates candidate hmem
  have hfewest := (mem_challengeTies hready.candidates).mp
    (hpick 0 _ (challengeTies_ne_nil hne))
  rw [← hid] at hfewest
  have husable : ∀ algorithmId, algorithmId ∈ candidate.algorithms ↔
      Usable data.snapshot binaries candidate.challengeId algorithmId := fun algorithmId =>
    (halgorithms algorithmId).trans ⟨fun hboth => hboth.2, fun hu => ⟨hfewest.1, hu⟩⟩
  have hadopted : adoptions ≠ [] := by
    rintro rfl
    obtain ⟨name, hname⟩ := List.exists_mem_of_ne_nil _ hsome
    obtain ⟨_, hnone, -⟩ := exists_of_mapM_ok hadoptions ((List.mem_insertionSort _).mpr hname)
    cases hnone
  have hmost := (mem_algorithmTies husable hadoptions).mp
    (hpick 1 _ (algorithmTies_ne_nil hadopted))
  obtain ⟨terms, hterms⟩ := propose_proposes hvalid hindex hpropose
  rw [← hid] at hterms
  exact ⟨binaries, candidate.challengeId, _, terms, hready.indexed, hfewest, hmost, hterms⟩

/-- Can a proposal be made for the challenge and the algorithm? -/
def Proposable (data : SelectionData) (binaries : Table String Json) (offer : Offer)
    (challengeId algorithmId : String) : Prop :=
  ∃ counts challengeTies adoptions algorithmTies selection,
    propose data binaries offer counts challengeTies challengeId adoptions algorithmTies
      algorithmId = .ok selection

theorem Proposable.propose (h : Proposable data binaries offer challengeId algorithmId)
    (counts adoptions : List (String × ℕ)) (challengeTies algorithmTies : List String) :
    ∃ selection, propose data binaries offer counts challengeTies challengeId adoptions
      algorithmTies algorithmId = .ok selection := by
  obtain ⟨counts', challengeTies', adoptions', algorithmTies', selection, h⟩ := h
  simp only [Protocol.propose, bind_eq_ok, fetch_eq_ok, pure_eq_ok] at h ⊢
  obtain ⟨challenge, hchallenge, algorithm, halgorithm, config, hconfig, fuel, hfuel, least, hleast,
    u, hcheck, active, hactive, members, hmembers, tracks, htracks, base, hbase, baseValue,
    hbaseValue, baseFee, hbaseFee, eachValue, heachValue, bundleFee, hbundleFee, details, hdetails,
    name, hname, binary, hbinary, -⟩ := h
  exact ⟨_, challenge, hchallenge, algorithm, halgorithm, config, hconfig, fuel, hfuel, least,
    hleast, u, hcheck, active, hactive, members, hmembers, tracks, htracks, base, hbase, baseValue,
    hbaseValue, baseFee, hbaseFee, eachValue, heachValue, bundleFee, hbundleFee, details, hdetails,
    name, hname, binary, hbinary, rfl⟩

/-- Draw these two where they are among the ties. -/
def drawing (challengeId algorithmId : String) (n : ℕ) (ties : List String) : String :=
  (ties.find? (· = if n = 0 then challengeId else algorithmId)).getD (ties.headD "")

theorem drawing_draws (challengeId algorithmId : String) :
    Draws (drawing challengeId algorithmId) := by
  intro n ties hne
  unfold drawing
  cases hfound : ties.find? (· = if n = 0 then challengeId else algorithmId) with
  | some name => exact List.mem_of_find?_eq_some hfound
  | none =>
      obtain ⟨first, rest, rfl⟩ := List.exists_cons_of_ne_nil hne
      exact List.mem_cons_self ..

theorem find?_self {ties : List String} {name : String} (h : name ∈ ties) :
    (ties.find? (· = name)).getD (ties.headD "") = name := by
  cases hfound : ties.find? (· = name) with
  | some found => simpa using List.find?_some hfound
  | none => exact absurd (List.find?_eq_none.mp hfound name h) (by simp)

/-- Every tied challenge and algorithm is drawn by some random choice. -/
theorem choose_drawn {observation : Json}
    (hvalid : validateSnapshot observation = .ok data.snapshot) (hindex : data.OwnIndex)
    (hready : Ready data offer binaries found)
    (hfewest : Fewest data binaries offer.resource challengeId)
    (hmost : MostAdopted data.snapshot binaries challengeId algorithmId)
    (hproposable : Proposable data binaries offer challengeId algorithmId) :
    ∃ draw, Draws draw ∧ ∃ selection terms, choose data draw offer = .ok (some selection) ∧
      Proposes data offer challengeId algorithmId selection terms := by
  have hchallenge := (mem_challengeTies hready.candidates).mpr hfewest
  obtain ⟨hfits, hnodup, hcandidates⟩ := candidates_spec hready.candidates
  obtain ⟨candidate, hmem, hid⟩ := List.mem_map.mp ((hfits challengeId).mpr hfewest.1)
  obtain ⟨halgorithms, -, -⟩ := hcandidates candidate hmem
  rw [hid] at halgorithms
  have husable : ∀ algorithmId, algorithmId ∈ candidate.algorithms ↔
      Usable data.snapshot binaries challengeId algorithmId := fun algorithmId =>
    (halgorithms algorithmId).trans ⟨fun hboth => hboth.2, fun hu => ⟨hfewest.1, hu⟩⟩
  -- Every adoption can be read.
  obtain ⟨adoptions, hadoptions⟩ : ∃ adoptions,
      (candidate.algorithms.insertionSort (· ≤ ·)).mapM (readAdoption data.snapshot)
        = .ok adoptions := by
    refine mapM_ok fun name hname => ?_
    obtain ⟨algorithm, -, -, hrow, -⟩ := (husable name).mp ((List.mem_insertionSort _).mp hname)
    obtain ⟨n, hn⟩ := validateSnapshot_adopted hvalid hrow
    exact ⟨(name, n), readAdoption_eq_ok.mpr ⟨rfl, hn⟩⟩
  have halgorithm := (mem_algorithmTies husable hadoptions).mpr hmost
  have hfirst : drawing challengeId algorithmId 0 (challengeTies data found) = challengeId :=
    find?_self hchallenge
  have hsecond : drawing challengeId algorithmId 1 (algorithmTies adoptions) = algorithmId :=
    find?_self halgorithm
  obtain ⟨selection, hpropose⟩ := hproposable.propose (countsOf data found) adoptions
    (challengeTies data found) (algorithmTies adoptions)
  obtain ⟨terms, hterms⟩ := propose_proposes hvalid hindex hpropose
  refine ⟨_, drawing_draws challengeId algorithmId, selection, terms,
    chooseFrom_of_choose.mpr (chooseFrom_eq_some.mpr ⟨binaries, found, candidate, adoptions, hready,
      List.ne_nil_of_mem hmem, ?_, hadoptions, ?_⟩), hterms⟩
  · rw [hfirst]
    exact (find?_key_eq_some hnodup).mpr ⟨hmem, hid⟩
  · rw [hfirst, hsecond]
    exact hpropose

end

end Protocol

end TigPool
