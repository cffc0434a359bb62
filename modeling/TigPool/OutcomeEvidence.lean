/-
# `TigPool.OutcomeEvidence` — what stands behind an outcome

In every state that a service and its reconcilers reach, behind each outcome on record stands a
visit: a saved block was replayed, the pool's feed in it was read, and its verdict is the outcome.
An outcome other than expiry needs proofs that TIG has taken; these are for nonces that were
sampled in an earlier visit, in which a block had confirmed the root of the results.  `Sound` also
says what stands behind each thing that a reconciler holds on the way there.
-/
import TigPool.Outcomes

namespace TigPool

open Basis

namespace Reconciliation

variable {playerId origin : String} {fingerprint : Json → String} {sha256 : String → String}
  {fromIso : String → Option ℚ}

/-! ## What outcomes rest on -/

/-- The intent of that kind is accepted. -/
def Confirmed (db : Db) (id : Uuid) (kind : IntentKind) : Prop :=
  ∃ k i, db.work.protocolOutbox.lookup k = some i ∧ i.reservationId = id ∧ i.kind = kind ∧
    i.state = .accepted

/-- The block confirms the benchmark, with the root of the results on record, and TIG has taken
these. -/
structure Rooted (db : Db) (v : Visit playerId) : Prop where
  shown : confirmed v.benchmark v.snapshot.height = .ok true
  root : ∃ p, db.work.benchmarkPayloads.lookup (v.benchmarkId, .results) = some p ∧ v.RootOf p
  taken : Confirmed db v.id .results

/-- By the two blocks the lifetime of the work has elapsed: it is the same at both, and strictly
less than their distance. -/
def Elapsed (r : Reservation) (original : Replay) (v : Visit playerId) : Prop :=
  ∃ challenge period,
    startOf r = .ok (challenge, .str original.snapshot.blockId, original.snapshot.height) ∧
    lifespan original.observation challenge "challenge lifetime" = .ok period ∧
    lifespan v.replay.observation challenge "current challenge lifetime" = .ok period ∧
    original.snapshot.height + period < v.snapshot.height

/-- No POST of results or proofs was ever authorised: the results, if there are any, are
cancelled. -/
def NeverSent (db : Db) (id : Uuid) : Prop :=
  ∀ k i, db.work.protocolOutbox.lookup k = some i → i.reservationId = id → i.kind ≠ .precommit →
    i.kind = .results ∧ i.state = .cancelled ∧ i.sentAt = none ∧
      ∀ responseId row, db.work.submissionResponses.lookup responseId = some row → row.outboxId ≠ k

/-- The results were sent, and TIG's only answer of note is that they are too late; there are no
proofs. -/
def RefusedLate (origin : String) (sha256 : String → String) (fromIso : String → Option ℚ)
    (db : Db) (v : Visit playerId) : Prop :=
  ∃ k i responseId row, db.work.protocolOutbox.lookup k = some i ∧ i.reservationId = v.id ∧
    i.kind = .results ∧ i.state = .rejected ∧
    db.work.submissionResponses.lookup responseId = some row ∧ row.outboxId = k ∧
    refusesLate sha256 fromIso origin v.benchmarkId v.snapshot.timestamp row.response = true ∧
    (∀ responseId' row', db.work.submissionResponses.lookup responseId' = some row' →
      row'.outboxId = k → saysTaken row'.response = false) ∧
    ∀ k' i', db.work.protocolOutbox.lookup k' = some i' → i'.reservationId = v.id →
      i'.kind ≠ .proofs

/-- What is replayed is what is kept of a saved block: it shows the row of the block, and has its
digest. -/
def Saved (fingerprint : Json → String) (db : Db) (captures : List (Uuid × Json))
    (replay : Replay) : Prop :=
  ∃ block, db.observation.blocks.lookup replay.snapshot.blockId = some block ∧
    replay.Shows replay.snapshot.blockId block ∧
    (block.attemptId, replay.observation) ∈ captures ∧
    Protocol.semantic fingerprint replay.snapshot replay.observation = block.semanticDigest

/-- The visit is one of the reservation, in a saved block. -/
structure Visit.Of (fingerprint : Json → String) (v : Visit playerId) (s : State playerId)
    (id : Uuid) (r : Reservation) : Prop where
  visited : v ∈ s.visits
  id : v.id = id
  benchmarkId : r.benchmarkId = some v.benchmarkId
  replayed : v.replay ∈ s.replays
  block : Saved fingerprint s.sys.db s.captures v.replay
  handed : r.handedOverAt.isSome

/-- What stands behind an outcome. -/
inductive Upheld (fingerprint : Json → String) (origin : String) (sha256 : String → String)
    (fromIso : String → Option ℚ) (s : State playerId) (id : Uuid) (r : Reservation) : Prop
  | active {v root : Visit playerId} {height : ℕ} : r.state = .active → v.Of fingerprint s id r →
      confirmed (v.feed.frauds.lookup v.benchmarkId) v.snapshot.height = .ok false →
      confirmed (v.feed.proofs.lookup v.benchmarkId) v.snapshot.height = .ok true →
      v.benchmarkId ∈ v.snapshot.precommits →
      heightIn (v.feed.proofs.lookup v.benchmarkId) "details" "block_active" = .ok height →
      r.activeAtHeight = some height → Confirmed s.sys.db id .proofs →
      root.Of fingerprint s id r → Rooted s.sys.db root →
      Upheld fingerprint origin sha256 fromIso s id r
  | failed {v root : Visit playerId} : r.state = .verificationFailed → v.Of fingerprint s id r →
      confirmed (v.feed.frauds.lookup v.benchmarkId) v.snapshot.height = .ok true →
      Confirmed s.sys.db id .proofs → root.Of fingerprint s id r → Rooted s.sys.db root →
      Upheld fingerprint origin sha256 fromIso s id r
  | expired {v : Visit playerId} {original : Replay} : r.state = .expired →
      v.Of fingerprint s id r → v.feed.shows v.benchmarkId = false →
      v.benchmarkId ∉ v.snapshot.precommits → original ∈ s.replays →
      Saved fingerprint s.sys.db s.captures original → Elapsed r original v →
      NeverSent s.sys.db id ∨ RefusedLate origin sha256 fromIso s.sys.db v →
      Upheld fingerprint origin sha256 fromIso s id r

/-! ## It stays -/

section

variable {db db' : Db} {v : Visit playerId} {id : Uuid}

theorem Confirmed.later {kind : IntentKind} (h : Confirmed db id kind) (hx : db.Later db') :
    Confirmed db' id kind := by
  obtain ⟨k, i, hi, hid, hkind, hstate⟩ := h
  obtain ⟨i', hi', hfollows⟩ := hx.intents hi
  obtain rfl := hfollows.settled (by simp [hstate]) (by simp [hstate])
  exact ⟨k, i', hi', hid, hkind, hstate⟩

theorem Rooted.later (h : Rooted db v) (hx : db.Later db') : Rooted db' v where
  shown := h.shown
  root := by
    obtain ⟨p, hp, hroot⟩ := h.root
    exact ⟨p, hx.payloads.lookup hp, hroot⟩
  taken := h.taken.later hx

/-- What follows on an intent at rest is that intent. -/
theorem settled_eq {i i' : ProtocolIntent} (h : i.Follows i')
    (hstate : i.state = .cancelled ∨ i.state = .rejected) : i' = i := by
  refine h.settled ?_ ?_ <;> rcases hstate with hs | hs <;> rw [hs] <;> nofun

theorem NeverSent.later (h : NeverSent db id) (hx : db.Later db') {r : Reservation}
    (hr : db.funds.reservations.lookup id = some r) (hover : r.Over) : NeverSent db' id := by
  intro k i' hi' hid hkind
  obtain ⟨i, hi, hfollows⟩ := hx.queued hr hover hi' ⟨hid, hkind⟩
  obtain ⟨hresults, hstate, hsent, hnone⟩ :=
    h k i hi (hfollows.reservationId ▸ hid) (hfollows.kind ▸ hkind)
  obtain rfl := settled_eq hfollows (.inl hstate)
  refine ⟨hresults, hstate, hsent, fun responseId row hrow heq => ?_⟩
  subst heq
  obtain ⟨row', hrow', rfl⟩ := hx.answered hrow (fun j hj => by
    obtain rfl := Option.some.inj (hi.symm.trans hj)
    rw [hstate]
    exact ⟨nofun, nofun⟩)
  exact hnone responseId row' hrow' rfl

theorem RefusedLate.later (h : RefusedLate origin sha256 fromIso db v) (hx : db.Later db')
    {r : Reservation} (hr : db.funds.reservations.lookup v.id = some r) (hover : r.Over) :
    RefusedLate origin sha256 fromIso db' v := by
  obtain ⟨k, i, responseId, row, hi, hid, hkind, hstate, hrow, hof, hlate, hnone, hproofs⟩ := h
  obtain ⟨i', hi', hfollows⟩ := hx.intents hi
  obtain rfl := settled_eq hfollows (.inr hstate)
  refine ⟨k, i', responseId, row, hi', hid, hkind, hstate, hx.responses.lookup hrow, hof, hlate,
    fun responseId' row' hrow' hof' => ?_, fun k' j' hj' hid' hproof => ?_⟩
  · obtain ⟨row₀, hrow₀, rfl⟩ := hx.answered hrow' (fun j hj => by
      obtain rfl := Option.some.inj (hi.symm.trans (hof' ▸ hj))
      rw [hstate]
      exact ⟨nofun, nofun⟩)
    exact hnone responseId' row₀ hrow₀ hof'
  · obtain ⟨j, hj, hfollows'⟩ := hx.queued hr hover hj' ⟨hid', by rw [hproof]; nofun⟩
    exact hproofs k' j hj (hfollows'.reservationId ▸ hid') (hfollows'.kind ▸ hproof)

end

/-! ## What the transactions find -/

theorem verdict_failed {feed : Feed} {height : ℕ} {benchmarkId : String}
    (h : verdict feed height benchmarkId = .ok .failed) :
    confirmed (feed.frauds.lookup benchmarkId) height = .ok true := by
  simp only [verdict, bind_eq_ok] at h
  obtain ⟨fraud, hfraud, h⟩ := h
  cases fraud with
  | true => exact hfraud
  | false =>
      simp only [Bool.false_eq_true, if_false, bind_eq_ok] at h
      obtain ⟨proof, -, h⟩ := h
      cases proof <;> simp only [Bool.false_eq_true, if_false, if_true, pure_eq_ok] at h
      · split at h <;> cases h
      · cases h

theorem verdict_proven {feed : Feed} {height : ℕ} {benchmarkId : String}
    (h : verdict feed height benchmarkId = .ok .proven) :
    confirmed (feed.frauds.lookup benchmarkId) height = .ok false ∧
      confirmed (feed.proofs.lookup benchmarkId) height = .ok true := by
  simp only [verdict, bind_eq_ok] at h
  obtain ⟨fraud, hfraud, h⟩ := h
  cases fraud with
  | true => cases h
  | false =>
      simp only [Bool.false_eq_true, if_false, bind_eq_ok] at h
      obtain ⟨proof, hproof, h⟩ := h
      cases proof with
      | true => exact ⟨hfraud, hproof⟩
      | false =>
          simp only [Bool.false_eq_true, if_false, pure_eq_ok] at h
          split at h <;> cases h

theorem verdict_absent {feed : Feed} {height : ℕ} {benchmarkId : String}
    (h : verdict feed height benchmarkId = .ok .absent) : feed.shows benchmarkId = false := by
  simp only [verdict, bind_eq_ok] at h
  obtain ⟨fraud, -, h⟩ := h
  cases fraud with
  | true => cases h
  | false =>
      simp only [Bool.false_eq_true, if_false, bind_eq_ok] at h
      obtain ⟨proof, -, h⟩ := h
      cases proof with
      | true => cases h
      | false =>
          simp only [Bool.false_eq_true, if_false, pure_eq_ok] at h
          split at h
          next => cases h
          next hshows => simpa using hshows

/-- A verdict with an outcome is a failure, or a proof of work that the block counts as active. -/
theorem outcomeOf_spec {feed : Feed} {snapshot : Protocol.Snapshot} {benchmarkId : String}
    {outcome : DefinitiveOutcome} {height : ℤ}
    (h : outcomeOf feed snapshot benchmarkId = .ok (some (outcome, height))) :
    outcome = .verificationFailed ∧
        confirmed (feed.frauds.lookup benchmarkId) snapshot.height = .ok true ∨
      outcome = .active ∧ confirmed (feed.frauds.lookup benchmarkId) snapshot.height = .ok false ∧
        confirmed (feed.proofs.lookup benchmarkId) snapshot.height = .ok true ∧
        benchmarkId ∈ snapshot.precommits ∧
        heightIn (feed.proofs.lookup benchmarkId) "details" "block_active" = .ok height := by
  simp only [outcomeOf, bind_eq_ok] at h
  obtain ⟨found, hfound, h⟩ := h
  cases found with
  | failed =>
      simp only [bind_eq_ok, pure_eq_ok, Option.some.injEq, Prod.mk.injEq] at h
      obtain ⟨_, -, rfl, -⟩ := h
      exact .inl ⟨rfl, verdict_failed hfound⟩
  | proven =>
      obtain ⟨hfraud, hproof⟩ := verdict_proven hfound
      simp only at h
      split at h
      next hactive =>
        simp only [bind_eq_ok, pure_eq_ok, Option.some.injEq, Prod.mk.injEq] at h
        obtain ⟨_, hheight, rfl, rfl⟩ := h
        exact .inr ⟨rfl, hfraud, hproof, hactive, hheight⟩
      next => cases h
  | _ => cases h

/-- A lifetime that has expired has elapsed, and the block does not count the work as active. -/
theorem expiredLifetime_spec {row : Reservation} {original : Json × Protocol.Snapshot}
    {observation : Json} {snapshot : Protocol.Snapshot} {life : Lifetime}
    (h : expiredLifetime row original observation snapshot = some life) :
    row.benchmarkId.all (fun id => id ∉ snapshot.precommits) = true ∧
    ∃ challenge period, startOf row = .ok (challenge, .str original.2.blockId, original.2.height) ∧
      lifespan original.1 challenge "challenge lifetime" = .ok period ∧
      lifespan observation challenge "current challenge lifetime" = .ok period ∧
      original.2.height + period < snapshot.height := by
  have hread := eq_ok_of_toOption h
  simp only [bind_eq_ok, require_eq_ok, exists_const] at hread
  obtain ⟨⟨challenge, blockId, started⟩, hstart, period, hperiod, current, hcurrent, hactive,
    ⟨rfl, rfl⟩, ⟨rfl, helapsed⟩, -⟩ := hread
  exact ⟨hactive, challenge, current, hstart, hperiod, hcurrent, helapsed⟩

section

variable {db db' : Db} {id : Uuid} {evidence : Json}

/-- An outcome is written to accepted work; nothing else that outcomes rest on is. -/
structure Ends (db db' : Db) (id : Uuid) (row : Reservation) (outcome : DefinitiveOutcome)
    (height : ℕ) : Prop where
  accepted : row.state = .accepted
  handed : outcome = .expired ∨ row.handedOverAt.isSome
  reservations : db'.funds.reservations = AList.insert id
    { row with state := outcome.state, slotHeld := false,
               activeAtHeight := if outcome = .active then some height else none }
    db.funds.reservations
  responses : db'.work.submissionResponses = db.work.submissionResponses

theorem recordOutcome_ends {out : Uuid} {outcome : DefinitiveOutcome} {height : ℤ}
    (h : recordOutcome db id outcome height evidence = .ok (db', out)) :
    ∃ row, db.funds.reservations.lookup id = some row ∧
      (row.state = outcome.state ∧ db' = db ∨ ∃ n : ℕ, height = n ∧
        Ends db db' id row outcome n ∧ db'.work.protocolOutbox = db.work.protocolOutbox) := by
  have hmoves := recordOutcome_moves h
  simp only [recordOutcome, lockedReservation, bind_eq_ok, require_eq_ok, exists_const,
    units_eq_ok, fetch_eq_ok] at h
  obtain ⟨-, n, ⟨hheight, -⟩, row, hrow, h⟩ := h
  refine ⟨row, hrow, ?_⟩
  split at h
  next hdone => exact .inl ⟨hdone, (Prod.mk.inj (Except.ok.inj h)).1.symm⟩
  next =>
    simp only [bind_eq_ok, require_eq_ok, exists_const, pure_eq_ok, Prod.mk.injEq] at h
    obtain ⟨hstate, hhanded, db₁, hevent, rfl, -⟩ := h
    have hreservations := congrArg Funds.reservations (event_funds hevent)
    exact .inr ⟨n, hheight, ⟨hstate, hhanded, hreservations, hmoves.steady.responses⟩,
      hmoves.outbox⟩

theorem confirmPayload_confirms {kind : IntentKind}
    (h : Submissions.confirmPayload db id kind evidence = .ok db') : Confirmed db' id kind := by
  simp only [Submissions.confirmPayload, bind_eq_ok, require_eq_ok, exists_const, fetch_eq_ok] at h
  obtain ⟨-, row, -, ⟨k, i⟩, hfound, hstate, h⟩ := h
  obtain ⟨hi, hid, hkind⟩ := Submissions.intentOf_spec hfound
  split at h
  next =>
    obtain rfl := Except.ok.inj h
    exact ⟨k, _, AList.lookup_insert _, hid, hkind, rfl⟩
  next hun =>
    obtain rfl := Except.ok.inj h
    exact ⟨k, i, hi, hid, hkind, hstate.resolve_left hun⟩

/-- An intent of the list is retired. -/
theorem putIntents_mem {intents : List (Uuid × ProtocolIntent)} {k : Uuid} {i : ProtocolIntent}
    (hmem : (k, i) ∈ intents) (huniq : ∀ j, (k, j) ∈ intents → j = i) :
    (intents.foldl (fun db i =>
        db.putIntent i.1 { i.2 with state := .cancelled, evidence := some evidence })
      db).work.protocolOutbox.lookup k
        = some { i with state := .cancelled, evidence := some evidence } := by
  induction intents generalizing db with
  | nil => cases hmem
  | cons x intents ih =>
      by_cases hlater : ∃ j, (k, j) ∈ intents
      · obtain ⟨j, hj⟩ := hlater
        obtain rfl := huniq j (List.mem_cons_of_mem _ hj)
        exact ih hj fun j' hj' => huniq j' (List.mem_cons_of_mem _ hj')
      · have hx : (k, i) = x :=
          (List.mem_cons.mp hmem).resolve_right fun hi => hlater ⟨i, hi⟩
        subst hx
        rcases @putIntents_lookup (db.putIntent k
          { i with state := .cancelled, evidence := some evidence }) intents evidence k
          with hsame | ⟨j, hj, -⟩
        · rw [List.foldl_cons, hsame]
          exact AList.lookup_insert _
        · exact absurd ⟨j, hj⟩ hlater

/-- The intents of results and proofs of a reservation. -/
def uploadsOf (db : Db) (id : Uuid) : List (Uuid × ProtocolIntent) :=
  (db.work.protocolOutbox.entries.map fun e => (e.1, e.2)).filter fun i =>
    i.2.reservationId = id ∧ i.2.kind ≠ .precommit

theorem mem_uploadsOf {k : Uuid} {i : ProtocolIntent} : (k, i) ∈ uploadsOf db id ↔
    db.work.protocolOutbox.lookup k = some i ∧ i.reservationId = id ∧ i.kind ≠ .precommit := by
  simp only [uploadsOf, List.mem_filter, List.mem_map, decide_eq_true_eq]
  refine and_congr_left fun _ => ?_
  constructor
  · rintro ⟨e, he, heq⟩
    obtain ⟨rfl, rfl⟩ := Prod.mk.inj heq
    exact Table.mem_entries_iff.mp he
  · exact fun hi => ⟨⟨k, i⟩, Table.mem_entries_iff.mpr hi, rfl⟩

/-- What was never begun is never sent once it is retired. -/
theorem putIntents_neverSent {db₁ : Db}
    (houtbox : db₁.work.protocolOutbox = db.work.protocolOutbox)
    (hready : ∀ x ∈ uploadsOf db id, x.2.kind ≠ .proofs ∧ x.2.sentAt = none)
    (hnone : ∀ responseId row, db₁.work.submissionResponses.lookup responseId = some row →
      ∀ x ∈ uploadsOf db id, row.outboxId ≠ x.1) :
    NeverSent ((uploadsOf db id).foldl (fun db i =>
      db.putIntent i.1 { i.2 with state := .cancelled, evidence := some evidence }) db₁) id := by
  intro k i' hi' hid hkind
  have hold : ∃ i, (k, i) ∈ uploadsOf db id := by
    rcases @putIntents_lookup db₁ (uploadsOf db id) evidence k with hsame | ⟨i, hi, -⟩
    · rw [hsame, houtbox] at hi'
      exact ⟨i', mem_uploadsOf.mpr ⟨hi', hid, hkind⟩⟩
    · exact ⟨i, hi⟩
  obtain ⟨i, hi⟩ := hold
  have hput := @putIntents_mem db₁ evidence (uploadsOf db id) k i hi fun j hj =>
    Option.some.inj ((mem_uploadsOf.mp hj).1.symm.trans (mem_uploadsOf.mp hi).1)
  obtain rfl := Option.some.inj (hput.symm.trans hi')
  obtain ⟨hproofs, hsent⟩ := hready _ hi
  refine ⟨?_, rfl, hsent, fun responseId row hrow heq => ?_⟩
  · cases hk : i.kind with
    | precommit => exact absurd hk (mem_uploadsOf.mp hi).2.2
    | results => rfl
    | proofs => exact absurd hk hproofs
  · obtain ⟨outbox, hframe⟩ := @putIntents_frame db₁ (uploadsOf db id) evidence
    rw [hframe] at hrow
    exact hnone responseId row hrow _ hi heq

theorem expireUnsentResults_ends {height : ℤ} {out : Bool}
    (h : expireUnsentResults db id height evidence = .ok (db', out)) :
    ∃ row, db.funds.reservations.lookup id = some row ∧
      (db' = db ∨ ∃ n : ℕ, height = n ∧ Ends db db' id row .expired n ∧
        row.handedOverAt.isSome ∧ NeverSent db' id) := by
  simp only [expireUnsentResults, lockedReservation, bind_eq_ok, fetch_eq_ok] at h
  obtain ⟨row, hrow, h⟩ := h
  refine ⟨row, hrow, ?_⟩
  split at h
  next => exact .inl (Prod.mk.inj (Except.ok.inj h)).1.symm
  next hcond =>
    simp only [not_or, not_not] at hcond
    obtain ⟨hstate, hhanded, hready, hnone, -⟩ := hcond
    simp only [bind_eq_ok, pure_eq_ok, Prod.mk.injEq] at h
    obtain ⟨⟨db₁, out₁⟩, houtcome, rfl, -⟩ := h
    obtain ⟨row', hrow', hcases⟩ := recordOutcome_ends houtcome
    obtain rfl := Option.some.inj (hrow.symm.trans hrow')
    obtain ⟨hdone, -⟩ | ⟨n, hheight, hends, houtbox⟩ := hcases
    · rw [hstate] at hdone
      cases hdone
    obtain ⟨outbox, hframe⟩ := @putIntents_frame db₁ (uploadsOf db id)
      (unsentEvidence evidence _)
    refine .inr ⟨n, hheight, ⟨hends.accepted, hends.handed, ?_, ?_⟩,
      Option.isSome_iff_ne_none.mpr hhanded, putIntents_neverSent houtbox ?_ ?_⟩
    · have hfunds := congrArg (fun d : Db => d.funds.reservations) hframe
      exact hfunds.trans hends.reservations
    · have hwork := congrArg (fun d : Db => d.work.submissionResponses) hframe
      exact hwork.trans hends.responses
    · intro x hx
      by_contra hnot
      refine hready (List.any_eq_true.mpr ⟨x, hx, decide_eq_true ?_⟩)
      by_contra hgood
      simp only [not_or, not_not] at hgood
      exact hnot ⟨hgood.1, hgood.2.2⟩
    · intro responseId row₁ hrow₁ x hx heq
      rw [hends.responses] at hrow₁
      exact hnone (Table.any_iff.mpr ⟨responseId, row₁, hrow₁,
        List.any_eq_true.mpr ⟨x, hx, decide_eq_true heq.symm⟩⟩)

/-- The results are rejected: they were possibly sent, were never answered with success, and
there are no proofs. -/
structure Rejects (db db' : Db) (id k : Uuid) (i : ProtocolIntent) : Prop where
  intent : db.work.protocolOutbox.lookup k = some i
  reservationId : i.reservationId = id
  kind : i.kind = .results
  rejected : ∃ evidence : Json, db'.work.protocolOutbox
    = AList.insert k { i with state := .rejected, evidence := some evidence } db.work.protocolOutbox
  proofs : ∀ k' i', db.work.protocolOutbox.lookup k' = some i' → i'.reservationId = id →
    i'.kind ≠ .proofs
  answers : ∀ responseId row, db.work.submissionResponses.lookup responseId = some row →
    row.outboxId = k → saysTaken row.response = false

theorem Rejects.refusedLate {k : Uuid} {i : ProtocolIntent} {v : Visit playerId}
    (h : Rejects db db' v.id k i)
    (hsame : db'.work.submissionResponses = db.work.submissionResponses) {responseId : Uuid}
    {row : SubmissionResponse} (hrow : db.work.submissionResponses.lookup responseId = some row)
    (hof : row.outboxId = k)
    (hlate : refusesLate sha256 fromIso origin v.benchmarkId v.snapshot.timestamp row.response
      = true) : RefusedLate origin sha256 fromIso db' v := by
  obtain ⟨evidence, houtbox⟩ := h.rejected
  have hput : db'.work.protocolOutbox.lookup k
      = some { i with state := .rejected, evidence := some evidence } := by
    rw [houtbox]
    exact AList.lookup_insert _
  refine ⟨k, _, responseId, row, hput, h.reservationId, h.kind, rfl, hsame ▸ hrow,
    hof, hlate, fun responseId' row' hrow' => ?_, ?_⟩
  · exact h.answers responseId' row' (hsame ▸ hrow')
  · intro k' i' hi' hid
    rw [houtbox] at hi'
    rcases Table.lookup_insert_cases hi' with ⟨-, rfl⟩ | ⟨-, hi'⟩
    · rw [h.kind]
      nofun
    · exact h.proofs k' i' hi' hid

theorem expireRejectedResults_ends {height : ℤ} {receipt : Uuid × Json}
    {origin : String} {out : Bool}
    (h : expireRejectedResults db id height evidence receipt origin = .ok (db', out)) :
    ∃ row, db.funds.reservations.lookup id = some row ∧
      (db' = db ∨ ∃ n : ℕ, height = n ∧ Ends db db' id row .expired n ∧
        ∃ k i, Rejects db db' id k i) := by
  simp only [expireRejectedResults, lockedReservation, bind_eq_ok, fetch_eq_ok] at h
  obtain ⟨row, hrow, h⟩ := h
  refine ⟨row, hrow, ?_⟩
  split at h
  next => exact .inl (Prod.mk.inj (Except.ok.inj h)).1.symm
  next k i hfound =>
    split at h
    next => exact .inl (Prod.mk.inj (Except.ok.inj h)).1.symm
    next hcond =>
      simp only [not_or, not_not] at hcond
      obtain ⟨hstate, -, hproofs, hanswers⟩ := hcond
      simp only [bind_eq_ok, pure_eq_ok, Prod.mk.injEq] at h
      obtain ⟨⟨db₁, out₁⟩, houtcome, rfl, -⟩ := h
      obtain ⟨row', hrow', hcases⟩ := recordOutcome_ends houtcome
      obtain rfl := Option.some.inj (hrow.symm.trans hrow')
      obtain ⟨hdone, -⟩ | ⟨n, hheight, hends, houtbox⟩ := hcases
      · rw [hstate] at hdone
        cases hdone
      obtain ⟨hi, hid, hkind⟩ := Submissions.intentOf_spec hfound
      refine .inr ⟨n, hheight, ⟨hends.accepted, hends.handed, hends.reservations, hends.responses⟩,
        k, i, hi, hid, hkind, ⟨_, congrArg (AList.insert k _) houtbox⟩, ?_, ?_⟩
      · intro k' i' hi' hid' hkind'
        have hnone := Table.find_eq_none.mp (Option.not_isSome_iff_eq_none.mp hproofs) k' i' hi'
        exact absurd ⟨hid', hkind'⟩ (of_decide_eq_false hnone)
      · intro responseId' row' hrow₁ hof
        by_contra htaken
        exact hanswers (Table.any_iff.mpr ⟨responseId', row', hrow₁,
          decide_eq_true ⟨hof, (Bool.not_eq_false _).mp htaken⟩⟩)

end

/-! ## What reconcilers hold is sound -/

/-- The reservation is on record with what was read of it. -/
def Visited (db : Db) (v : Visit playerId) : Prop :=
  ∃ r, db.funds.reservations.lookup v.id = some r ∧ r.benchmarkId = some v.benchmarkId ∧
    r.assignment = v.row.assignment ∧ r.selection = v.row.selection ∧
    (v.row.handedOverAt.isSome → r.handedOverAt.isSome)

/-- What is kept is kept with a capture, and what is kept with the capture of a block shows the
block. -/
structure Archived (db : Db) (captures : List (Uuid × Json)) : Prop where
  known : ∀ x ∈ captures, x.1 ∈ db.observation.archive.captureAttempts
  shows : ∀ {id block}, db.observation.blocks.lookup id = some block → ∀ replay : Replay,
    (block.attemptId, replay.observation) ∈ captures → replay.Shows id block

structure Sound (fingerprint : Json → String) (origin : String) (sha256 : String → String)
    (fromIso : String → Option ℚ) (s : State playerId) : Prop where
  works : s.sys.Works
  archived : Archived s.sys.db s.captures
  replays : ∀ x ∈ s.replays, Saved fingerprint s.sys.db s.captures x
  visits : ∀ v ∈ s.visits, v.replay ∈ s.replays ∧ Visited s.sys.db v
  results : ∀ x ∈ s.results, s.sys.db.work.benchmarkPayloads.lookup (x.1, .results) = some x.2
  rooted : ∀ v ∈ s.rooted, v ∈ s.visits ∧ Rooted s.sys.db v
  sampled : ∀ {benchmarkId progress},
    s.sys.db.work.benchmarkProgress.lookup benchmarkId = some progress →
    ∃ v ∈ s.rooted, v.benchmarkId = benchmarkId
  checked : ∀ v ∈ s.checked, v ∈ s.visits
  proven : ∀ v ∈ s.proven, v ∈ s.checked ∧ Confirmed s.sys.db v.id .proofs
  lifetimes : ∀ x ∈ s.lifetimes, x.1 ∈ s.checked ∧ x.1.feed.shows x.1.benchmarkId = false ∧
    x.1.benchmarkId ∉ x.1.snapshot.precommits ∧
    ∃ original ∈ s.replays, Elapsed x.1.row original x.1
  receipts : ∀ x ∈ s.receipts,
    s.sys.db.work.submissionResponses.lookup x.2.1 = some x.2.2 ∧
    ∃ i, s.sys.db.work.protocolOutbox.lookup x.2.2.outboxId = some i ∧
      i.reservationId = x.1 ∧ i.kind = .results
  upheld : ∀ {id r}, s.sys.db.funds.reservations.lookup id = some r → r.Over →
    Upheld fingerprint origin sha256 fromIso s id r

theorem Visited.later {db db' : Db} {v : Visit playerId} (h : Visited db v) (hx : db.Later db') :
    Visited db' v := by
  obtain ⟨r, hr, hid, hassignment, hselection, hhanded⟩ := h
  obtain ⟨r', hr', hf⟩ := hx.reservations hr
  obtain ⟨hid', hassignment', -⟩ := hf.assigned (Option.isSome_of_eq_some hid)
  exact ⟨r', hr', hid'.trans hid, hassignment'.trans hassignment,
    hf.selection.trans hselection, fun h => hf.handed (hhanded h)⟩

theorem startOf_congr {r r' : Reservation} (hassignment : r'.assignment = r.assignment)
    (hselection : r'.selection = r.selection) : startOf r' = startOf r := by
  rw [startOf, startOf, hassignment, hselection]

theorem Saved.later {db db' : Db} {captures captures' : List (Uuid × Json)} {replay : Replay}
    (h : Saved fingerprint db captures replay) (hx : db.Later db') (hmore : captures ⊆ captures') :
    Saved fingerprint db' captures' replay := by
  obtain ⟨block, hblock, hshows, hkept, hdigest⟩ := h
  obtain ⟨block', hblock', hsame⟩ := hx.blocks hblock
  refine ⟨block', hblock', hshows.later hsame, ?_, ?_⟩
  · rw [hsame.attemptId]
    exact hmore hkept
  · exact hdigest.trans (congrArg ObservedBlock.semanticDigest hsame.facts).symm

theorem Keeps.more {captures captures' : List (Uuid × Json)} {a : Action}
    (h : Keeps fingerprint captures a captures') : captures ⊆ captures' := by
  cases h with
  | block => exact List.subset_cons_self _ _
  | other => exact List.Subset.refl _

/-- What is kept with a new block shows it; other blocks have another capture. -/
theorem Archived.step {s s' : Sys} {a : Action} {captures captures' : List (Uuid × Json)}
    (h : Archived s.db captures) (hr : Sys.Reachable Sys.Whole s) (hs : Sys.Step s a s')
    (hk : Keeps fingerprint captures a captures') : Archived s'.db captures' := by
  have hold : ∀ x ∈ captures, x.1 ∈ s'.db.observation.archive.captureAttempts := fun x hx =>
    hs.attempt_stays hr.lawful (h.known x hx)
  have hback {id : String} {b b' : ObservedBlock} (hb : s.db.observation.blocks.lookup id = some b)
      (hx : b.Extends b') (replay : Replay)
      (hmem : (b'.attemptId, replay.observation) ∈ captures) : replay.Shows id b' :=
    (h.shows hb replay (hx.attemptId ▸ hmem)).later hx
  cases hk with
  | other hne =>
      refine ⟨hold, fun {id b'} hb' replay hmem => ?_⟩
      rcases hs.block_back hr.lawful hb' with ⟨b, hb, hx⟩ | ⟨source, c, seen, rfl, -⟩
      · exact hback hb hx replay hmem
      · exact absurd rfl (hne source c seen)
  | @block observation kept source c seen harchives =>
      have hfresh := hs.record_fresh
      refine ⟨List.forall_mem_cons.mpr ⟨?_, hold⟩, fun {id b'} hb' replay hmem => ?_⟩
      · cases hs with
        | observe hs =>
            cases hs with
            | record hs => exact BlockStore.record_keeps hs
      rcases hs.block_back hr.lawful hb' with
        ⟨b, hb, hx⟩ | ⟨source', c', seen', heq, rfl, -, -, rfl, -⟩
      · rcases List.mem_cons.mp hmem with heq | hmem
        · obtain ⟨attempt, hattempt, -⟩ := hr.captured hb
          have hsame : b.attemptId = source.attemptId :=
            hx.attemptId.symm.trans (Prod.mk.inj heq).1
          rw [hsame] at hattempt
          exact absurd (AList.lookup_isSome.mp (Option.isSome_of_eq_some hattempt)) hfresh
        · exact hback hb hx replay hmem
      · obtain ⟨rfl, hc, -⟩ := ObservationAction.record.inj (Action.observe.inj heq)
        obtain rfl := Option.some.inj hc
        rcases List.mem_cons.mp hmem with heq | hmem
        · exact harchives.shows (Prod.mk.inj heq).2 _ _
        · exact absurd (h.known _ hmem) hfresh

section

variable {s s' : State playerId} {id : Uuid} {r r' : Reservation}

/-- Nothing that was read is dropped, and nothing on record is taken back. -/
structure Grows (s s' : State playerId) : Prop where
  later : s.sys.db.Later s'.sys.db
  captures : s.captures ⊆ s'.captures
  replays : s.replays ⊆ s'.replays
  visits : s.visits ⊆ s'.visits

theorem Visit.Of.grows {v : Visit playerId} (h : v.Of fingerprint s id r) (hg : Grows s s')
    (hf : r.Follows r') : v.Of fingerprint s' id r' := by
  have hassigned := hf.assigned (Option.isSome_of_eq_some h.benchmarkId)
  exact ⟨hg.visits h.visited, h.id, hassigned.1.trans h.benchmarkId, hg.replays h.replayed,
    h.block.later hg.later hg.captures, hf.handed h.handed⟩

/-- What stands behind an outcome stands behind it later. -/
theorem Upheld.grows (h : Upheld fingerprint origin sha256 fromIso s id r) (hg : Grows s s')
    (hr : s.sys.db.funds.reservations.lookup id = some r) (hf : r.Follows r') :
    Upheld fingerprint origin sha256 fromIso s' id r' := by
  cases h with
  | active hstate hv hfraud hproof hactive hheight hat hsent hroot hrooted =>
      obtain ⟨hstate', hat'⟩ := hf.sameEnd (.inl hstate)
      exact .active (hstate'.trans hstate) (hv.grows hg hf) hfraud hproof hactive hheight
        (hat'.trans hat) (hsent.later hg.later) (hroot.grows hg hf) (hrooted.later hg.later)
  | failed hstate hv hfraud hsent hroot hrooted =>
      obtain ⟨hstate', -⟩ := hf.sameEnd (.inr (.inl hstate))
      exact .failed (hstate'.trans hstate) (hv.grows hg hf) hfraud (hsent.later hg.later)
        (hroot.grows hg hf) (hrooted.later hg.later)
  | @expired v original hstate hv hshows hactive horiginal hsaved helapsed hsends =>
      have hover : r.Over := .inr (.inr hstate)
      obtain ⟨hstate', -⟩ := hf.sameEnd hover
      have hassigned := hf.assigned (Option.isSome_of_eq_some hv.benchmarkId)
      have helapsed' : Elapsed r' original v := by
        rw [Elapsed, startOf_congr hassigned.2.1 hf.selection]
        exact helapsed
      refine .expired (hstate'.trans hstate) (hv.grows hg hf) hshows hactive
        (hg.replays horiginal) (hsaved.later hg.later hg.captures) helapsed' ?_
      exact hsends.imp (fun h => h.later hg.later hr hover)
        fun h => h.later hg.later (hv.id ▸ hr) hover

theorem whole_work {sys : Sys} {w : WorkAction} : Sys.Whole sys (.work w) :=
  fun _ heq => by cases heq

theorem Keeps.work {captures : List (Uuid × Json)} {w : WorkAction} :
    Keeps fingerprint captures (.work w) captures :=
  .other fun _ _ _ heq => by cases heq

namespace Sound

variable {sys : Sys} {captures : List (Uuid × Json)}

/-- A transaction changes the database only: what is held stays sound, if outcomes do and nonces
are sampled for benchmarks whose root was found. -/
theorem moved (h : Sound fingerprint origin sha256 fromIso s) {a : Action}
    (ha : Sys.Whole s.sys a) (hs : Sys.Step s.sys a sys)
    (hk : Keeps fingerprint s.captures a captures)
    (hsampled : ∀ {benchmarkId progress},
      sys.db.work.benchmarkProgress.lookup benchmarkId = some progress →
      ∃ v ∈ s.rooted, v.benchmarkId = benchmarkId)
    (hup : ∀ {id r'}, sys.db.funds.reservations.lookup id = some r' → r'.Over →
      Upheld fingerprint origin sha256 fromIso { s with sys, captures } id r') :
    Sound fingerprint origin sha256 fromIso { s with sys, captures } :=
  have hx := hs.later h.works ha
  { works := h.works.step ha hs
    archived := h.archived.step h.works.reachable hs hk
    replays := fun x hmem => (h.replays x hmem).later hx hk.more
    visits := fun v hmem => (h.visits v hmem).imp_right fun hv => hv.later hx
    results := fun x hmem => hx.payloads.lookup (h.results x hmem)
    rooted := fun v hmem => (h.rooted v hmem).imp_right fun hv => hv.later hx
    sampled := hsampled
    checked := h.checked
    proven := fun v hmem => (h.proven v hmem).imp_right fun hv => hv.later hx
    lifetimes := h.lifetimes
    receipts := fun x hmem => by
      obtain ⟨hrow, i, hi, hid, hkind⟩ := h.receipts x hmem
      obtain ⟨i', hi', hf⟩ := hx.intents hi
      exact ⟨hx.responses.lookup hrow, i', hi', hf.reservationId.trans hid, hf.kind.trans hkind⟩
    upheld := hup }

/-- Outcomes that were on record are upheld after a transaction. -/
theorem still (h : Sound fingerprint origin sha256 fromIso s) {a : Action}
    (ha : Sys.Whole s.sys a) (hs : Sys.Step s.sys a sys)
    (hk : Keeps fingerprint s.captures a captures)
    (hr : s.sys.db.funds.reservations.lookup id = some r) (hover : r.Over)
    (hr' : sys.db.funds.reservations.lookup id = some r') :
    Upheld fingerprint origin sha256 fromIso { s with sys, captures } id r' := by
  have hx := hs.later h.works ha
  obtain ⟨r'', hr'', hf⟩ := hx.reservations hr
  obtain rfl := Option.some.inj (hr'.symm.trans hr'')
  exact (h.upheld hr hover).grows
    ⟨hx, hk.more, List.Subset.refl _, List.Subset.refl _⟩ hr hf

/-- Sampled nonces were sampled before, where a transaction samples none. -/
theorem stillSampled (h : Sound fingerprint origin sha256 fromIso s) {a : Action}
    (hs : Sys.Step s.sys a sys) (hne : a ≠ .work .sampled) {benchmarkId : String}
    {progress : BenchmarkProgress}
    (hp : sys.db.work.benchmarkProgress.lookup benchmarkId = some progress) :
    ∃ v ∈ s.rooted, v.benchmarkId = benchmarkId := by
  rw [hs.progress_same h.works.reachable.lawful h.works.filed hne] at hp
  exact h.sampled hp

/-- A transaction that records no outcome and samples no nonces. -/
theorem served (h : Sound fingerprint origin sha256 fromIso s) {a : Action}
    (ha : Sys.Whole s.sys a) (hne : ends a = false) (hsampled : a ≠ .work .sampled)
    (hs : Sys.Step s.sys a sys) (hk : Keeps fingerprint s.captures a captures) :
    Sound fingerprint origin sha256 fromIso { s with sys, captures } := by
  refine h.moved ha hs hk (h.stillSampled hs hsampled) fun hr' hover => ?_
  obtain ⟨r, hr, hsame⟩ := hs.endsNothing h.works.reachable.lawful ha hne hr' hover
  exact h.still ha hs hk hr (hsame.over.mp hover) hr'

/-- A transaction that records an outcome, which is upheld. -/
theorem ended (h : Sound fingerprint origin sha256 fromIso s) {a : Action} {row : Reservation}
    {outcome : DefinitiveOutcome} {n : ℕ} (ha : Sys.Whole s.sys a) (hs : Sys.Step s.sys a sys)
    (hk : Keeps fingerprint s.captures a s.captures) (hsampled : a ≠ .work .sampled)
    (hends : Ends s.sys.db sys.db id row outcome n)
    (hup : s.sys.db.Later sys.db → Upheld fingerprint origin sha256 fromIso { s with sys } id
      { row with state := outcome.state, slotHeld := false,
                 activeAtHeight := if outcome = .active then some n else none }) :
    Sound fingerprint origin sha256 fromIso { s with sys } := by
  refine h.moved ha hs hk (h.stillSampled hs hsampled) fun {id' r'} hr' hover => ?_
  have hlookup := hr'
  rw [hends.reservations] at hlookup
  rcases Table.lookup_insert_cases hlookup with ⟨rfl, rfl⟩ | ⟨-, hr⟩
  · exact hup (hs.later h.works ha)
  · exact h.still ha hs hk hr hover hr'

/-- A visit is one of the reservation as it is. -/
theorem visit_of (h : Sound fingerprint origin sha256 fromIso s) {v : Visit playerId}
    (hv : v ∈ s.visits) (hx : s.sys.db.Later sys.db)
    (hr : s.sys.db.funds.reservations.lookup v.id = some r)
    (hid : r'.benchmarkId = r.benchmarkId) (hhanded : r'.handedOverAt.isSome) :
    v.Of fingerprint { s with sys } v.id r' := by
  obtain ⟨hreplay, r₀, hr₀, hnamed, -⟩ := h.visits v hv
  obtain rfl := Option.some.inj (hr.symm.trans hr₀)
  exact ⟨hv, rfl, hid.trans hnamed, hreplay,
    (h.replays _ hreplay).later hx (List.Subset.refl _), hhanded⟩

/-- Before proofs are taken, a block has confirmed the root of the results. -/
theorem root_of (h : Sound fingerprint origin sha256 fromIso s)
    (hsent : Confirmed s.sys.db id .proofs) :
    ∃ root ∈ s.visits, root.id = id ∧ Rooted s.sys.db root := by
  obtain ⟨k, i, hi, hid, hkind, -⟩ := hsent
  obtain ⟨benchmarkId, p, hp, hcarries⟩ := h.works.filed.intent hi (by rw [hkind]; nofun)
  rw [hkind] at hp
  obtain ⟨progress, hprogress⟩ := h.works.samples _ _ hp
  obtain ⟨root, hroot, rfl⟩ := h.sampled hprogress
  obtain ⟨hvisited, hrooted⟩ := h.rooted root hroot
  refine ⟨root, hvisited, ?_, hrooted⟩
  -- The benchmark of the proofs is that of the reservation, and no other has it.
  obtain ⟨-, r₁, hr₁, hnamed₁, -⟩ := h.visits root hvisited
  obtain ⟨r₂, hr₂, hnamed₂, -⟩ := hcarries.reservation
  rw [hid] at hr₂
  have hreachable := h.works.reachable
  exact hreachable.coupled.owner_unique
    (fun hr => (hreachable.lawful.funds.rows.reservation hr).shape)
    (.inr ⟨r₁, hr₁, hnamed₁⟩) (.inr ⟨r₂, hr₂, hnamed₂⟩)

/-- The lifetime of the work has elapsed, whatever was written to it since. -/
theorem elapsed (h : Sound fingerprint origin sha256 fromIso s) {v : Visit playerId}
    {life : Lifetime} (hmem : (v, life) ∈ s.lifetimes)
    (hr : s.sys.db.funds.reservations.lookup v.id = some r)
    (hassignment : r'.assignment = r.assignment) (hselection : r'.selection = r.selection) :
    ∃ original ∈ s.replays, Elapsed r' original v := by
  obtain ⟨hchecked, -, -, original, horiginal, helapsed⟩ := h.lifetimes _ hmem
  obtain ⟨-, r₀, hr₀, -, hassignment₀, hselection₀, -⟩ := h.visits v (h.checked v hchecked)
  obtain rfl := Option.some.inj (hr.symm.trans hr₀)
  refine ⟨original, horiginal, ?_⟩
  rw [Elapsed, startOf_congr (hassignment.trans hassignment₀) (hselection.trans hselection₀)]
  exact helapsed

/-- More is held, and outcomes are upheld as before. -/
theorem upheldIn (h : Sound fingerprint origin sha256 fromIso s) (hsys : s'.sys = s.sys)
    (hcaptures : s'.captures = s.captures) (hreplays : s.replays ⊆ s'.replays)
    (hvisits : s.visits ⊆ s'.visits) (hr : s'.sys.db.funds.reservations.lookup id = some r)
    (hover : r.Over) : Upheld fingerprint origin sha256 fromIso s' id r := by
  rw [hsys] at hr
  exact (h.upheld hr hover).grows
    ⟨hsys ▸ .refl _, hcaptures ▸ List.Subset.refl _, hreplays, hvisits⟩ hr (.refl r)

/-- A visit is done with the benchmark's record. -/
theorem done (h : Sound fingerprint origin sha256 fromIso s) {v : Visit playerId}
    (hv : v ∈ s.visits) : Sound fingerprint origin sha256 fromIso
      { s with checked := v :: s.checked } :=
  { h with
    checked := List.forall_mem_cons.mpr ⟨hv, h.checked⟩
    proven := fun v hv => (h.proven v hv).imp_left (List.mem_cons_of_mem _)
    lifetimes := fun x hx => (h.lifetimes x hx).imp_left (List.mem_cons_of_mem _)
    upheld := h.upheldIn rfl rfl (List.Subset.refl _) (List.Subset.refl _) }

/-- Nonces are sampled for a benchmark whose root was found. -/
theorem samples (h : Sound fingerprint origin sha256 fromIso s) {v : Visit playerId}
    {nonces : List ℕ} {evidence : Json} {db : Db} (hv : v ∈ s.rooted)
    (hpost : MemberProtocol.sampled s.sys.db v.benchmarkId nonces evidence = .ok db) :
    Sound fingerprint origin sha256 fromIso { s with sys := ⟨db, s.sys.held⟩ } := by
  have hs : Sys.Step s.sys (.work .sampled) ⟨db, s.sys.held⟩ := .work (.sampled hpost)
  refine h.moved whole_work hs .work (fun {benchmarkId progress} hprogress => ?_)
    fun hr' hover => ?_
  · rcases MemberProtocol.sampled_spec hpost with rfl | ⟨-, row, rfl⟩
    · exact h.sampled hprogress
    · rcases Table.lookup_insert_cases hprogress with ⟨rfl, -⟩ | ⟨-, hprogress⟩
      · exact ⟨v, hv, rfl⟩
      · exact h.sampled hprogress
  · obtain ⟨r, hr, hsame⟩ := hs.endsNothing h.works.reachable.lawful whole_work rfl hr' hover
    exact h.still whole_work hs .work hr (hsame.over.mp hover) hr'

/-- An outcome is upheld by the visit that it is taken from. -/
theorem decides (h : Sound fingerprint origin sha256 fromIso s) {v : Visit playerId}
    {row : Reservation} {outcome : DefinitiveOutcome} {n : ℕ} (hv : v ∈ s.proven)
    (hrow : s.sys.db.funds.reservations.lookup v.id = some row)
    (houtcome : outcomeOf v.feed v.snapshot v.benchmarkId = .ok (some (outcome, (n : ℤ))))
    (hends : Ends s.sys.db sys.db v.id row outcome n) (hx : s.sys.db.Later sys.db) :
    Upheld fingerprint origin sha256 fromIso { s with sys } v.id
      { row with state := outcome.state, slotHeld := false,
                 activeAtHeight := if outcome = .active then some n else none } := by
  obtain ⟨hchecked, hsent⟩ := h.proven v hv
  have hvisited := h.checked v hchecked
  obtain ⟨root, hroot, hid, hrooted⟩ := h.root_of hsent
  have hof {r' : Reservation} (hnamed : r'.benchmarkId = row.benchmarkId)
      (hhanded : r'.handedOverAt.isSome) : root.Of fingerprint { s with sys } v.id r' :=
    hid ▸ h.visit_of hroot hx (hid ▸ hrow) hnamed hhanded
  rcases outcomeOf_spec houtcome with ⟨rfl, hfraud⟩ | ⟨rfl, hfraud, hproof, hactive, hheight⟩
  · have hhanded := hends.handed.resolve_left nofun
    exact .failed rfl (h.visit_of hvisited hx hrow rfl hhanded) hfraud (hsent.later hx)
      (hof rfl hhanded) (hrooted.later hx)
  · have hhanded := hends.handed.resolve_left nofun
    exact .active rfl (h.visit_of hvisited hx hrow rfl hhanded) hfraud hproof hactive hheight
      rfl (hsent.later hx) (hof rfl hhanded) (hrooted.later hx)

/-- An expiry is upheld by the visit in which the lifetime has elapsed. -/
theorem expires (h : Sound fingerprint origin sha256 fromIso s) {v : Visit playerId}
    {life : Lifetime} (hlife : (v, life) ∈ s.lifetimes)
    (hr : s.sys.db.funds.reservations.lookup v.id = some r) (hx : s.sys.db.Later sys.db)
    (hstate : r'.state = .expired) (hid : r'.benchmarkId = r.benchmarkId)
    (hassignment : r'.assignment = r.assignment) (hselection : r'.selection = r.selection)
    (hhanded : r'.handedOverAt.isSome)
    (hsends : NeverSent sys.db v.id ∨ RefusedLate origin sha256 fromIso sys.db v) :
    Upheld fingerprint origin sha256 fromIso { s with sys } v.id r' := by
  obtain ⟨hchecked, hshows, hactive, -⟩ := h.lifetimes _ hlife
  obtain ⟨original, horiginal, helapsed⟩ := h.elapsed hlife hr hassignment hselection
  exact .expired hstate (h.visit_of (h.checked v hchecked) hx hr hid hhanded) hshows hactive
    horiginal ((h.replays _ horiginal).later hx (List.Subset.refl _)) helapsed hsends

end Sound

theorem Step.sound (h : Sound fingerprint origin sha256 fromIso s)
    (hstep : Step playerId origin fingerprint sha256 fromIso s s') :
    Sound fingerprint origin sha256 fromIso s' := by
  cases hstep with
  | served ha hne hs hk =>
      simp only [reconciles, Bool.or_eq_false_iff] at hne
      refine h.served ha hne.1 ?_ hs hk
      rintro rfl
      cases hne.2
  | @read id replay hread =>
      obtain ⟨block, hblock, hkept, hdigest⟩ := hread.block
      have hshows := h.archived.shows hblock replay hkept
      have hid := hshows.blockId
      subst hid
      have hsaved : Saved fingerprint s.sys.db s.captures replay :=
        ⟨block, hblock, hshows, hkept, hdigest⟩
      refine { h with
        replays := List.forall_mem_cons.mpr ⟨hsaved, h.replays⟩
        visits := fun v hv => ⟨List.mem_cons_of_mem _ (h.visits v hv).1, (h.visits v hv).2⟩
        lifetimes := fun x hx => ?_
        upheld := h.upheldIn rfl rfl (List.subset_cons_self _ _) (List.Subset.refl _) }
      obtain ⟨hchecked, hshows, hactive, original, horiginal, helapsed⟩ := h.lifetimes x hx
      exact ⟨hchecked, hshows, hactive, original, List.mem_cons_of_mem _ horiginal, helapsed⟩
  | @visited v hreplay hr hstate =>
      exact { h with
        visits := List.forall_mem_cons.mpr
          ⟨⟨hreplay, v.row, hr, v.named, rfl, rfl, fun h => h⟩, h.visits⟩
        rooted := fun v hv => (h.rooted v hv).imp_left (List.mem_cons_of_mem _)
        checked := fun v hv => List.mem_cons_of_mem _ (h.checked v hv)
        upheld := h.upheldIn rfl rfl (List.Subset.refl _) (List.subset_cons_self _ _) }
  | looked hp =>
      exact { h with
        results := List.forall_mem_cons.mpr ⟨hp, h.results⟩
        upheld := h.upheldIn rfl rfl (List.Subset.refl _) (List.Subset.refl _) }
  | passed hv _ => exact h.done hv
  | rooted hv hconfirmed hp hhanded hroot hpost =>
      have hs : Sys.Step s.sys (.work .confirmPayload) _ := .work (.confirmPayload hpost)
      have hserved := h.served whole_work rfl (by simp) hs .work
      have hx := hs.later h.works whole_work
      exact { hserved with
        rooted := List.forall_mem_cons.mpr ⟨⟨hv, hconfirmed,
          ⟨_, hx.payloads.lookup (h.results _ hp), hroot⟩, confirmPayload_confirms hpost⟩,
          hserved.rooted⟩
        sampled := fun hprogress => by
          obtain ⟨root, hmem, hid⟩ := hserved.sampled hprogress
          exact ⟨root, List.mem_cons_of_mem _ hmem, hid⟩
        upheld := hserved.upheldIn rfl rfl (List.Subset.refl _) (List.Subset.refl _) }
  | stopped hv _ => exact h.done (h.rooted _ hv).1
  | sampled hv _ _ hpost => exact (h.samples hv hpost).done (h.rooted _ hv).1
  | proven hv hverdict hpost =>
      have hs : Sys.Step s.sys (.work .confirmPayload) _ := .work (.confirmPayload hpost)
      have hserved := h.served whole_work rfl (by simp) hs .work
      exact { hserved with
        proven := List.forall_mem_cons.mpr ⟨⟨hv, confirmPayload_confirms hpost⟩, hserved.proven⟩
        upheld := hserved.upheldIn rfl rfl (List.Subset.refl _) (List.Subset.refl _) }
  | @ended v outcome height out db hv houtcome hpost =>
      have hs : Sys.Step s.sys (.funds (.recordOutcome v.id)) ⟨db, s.sys.held⟩ :=
        .funds (.recordOutcome hpost)
      have hwhole : Sys.Whole s.sys (.funds (.recordOutcome v.id)) := fun _ heq => by
        obtain rfl := Action.funds.inj heq
        rfl
      obtain ⟨row, hrow, ⟨-, rfl⟩ | ⟨n, rfl, hends, -⟩⟩ := recordOutcome_ends hpost
      · exact h
      · exact h.ended hwhole hs (.other fun _ _ _ heq => by cases heq) (by simp) hends
          (h.decides hv hrow houtcome hends)
  | @lived v original life hv hverdict horiginal _ hlife =>
      obtain ⟨hactive, helapsed⟩ := expiredLifetime_spec hlife
      rw [v.named, Option.all_some, decide_eq_true_iff] at hactive
      exact { h with
        lifetimes := List.forall_mem_cons.mpr ⟨⟨hv, verdict_absent hverdict, hactive, original,
          horiginal, helapsed⟩, h.lifetimes⟩
        upheld := h.upheldIn rfl rfl (List.Subset.refl _) (List.Subset.refl _) }
  | @expiredUnsent v life out db hlife hhanded hpost =>
      have hs : Sys.Step s.sys (.work (.expireUnsentResults v.id)) ⟨db, s.sys.held⟩ :=
        .work (.expireUnsentResults hpost)
      obtain ⟨row, hrow, rfl | ⟨n, -, hends, hhanded', hnever⟩⟩ := expireUnsentResults_ends hpost
      · exact h
      · exact h.ended whole_work hs .work (by simp) hends fun hx =>
          h.expires hlife hrow hx rfl rfl rfl rfl hhanded' (.inl hnever)
  | answered hrow =>
      obtain ⟨hrow, i, hi, hid, hkind, -⟩ := hrow
      exact { h with
        receipts := List.forall_mem_cons.mpr ⟨⟨hrow, i, hi, hid, hkind⟩, h.receipts⟩
        upheld := h.upheldIn rfl rfl (List.Subset.refl _) (List.Subset.refl _) }
  | @expiredRejected v life responseId row₁ out db hlife hreceipt hlate hpost =>
      have hs : Sys.Step s.sys (.work (.expireRejectedResults v.id)) ⟨db, s.sys.held⟩ :=
        .work (.expireRejectedResults hpost)
      obtain ⟨row, hrow, rfl | ⟨n, -, hends, k, i, hrejects⟩⟩ := expireRejectedResults_ends hpost
      · exact h
      -- The response that was read answers the results that are refused, and work with results
      -- was handed over.
      obtain ⟨hreceived, j, hj, hjid, hjkind⟩ := h.receipts _ hreceipt
      have hof : row₁.outboxId = k := h.works.reachable.coupled.unique hj hrejects.intent
        (hjid.trans hrejects.reservationId.symm) (hjkind.trans hrejects.kind.symm)
      obtain ⟨_, _, -, hcarries⟩ :=
        h.works.filed.intent hrejects.intent (by rw [hrejects.kind]; nofun)
      obtain ⟨r₀, hr₀, -, hhanded⟩ := hcarries.reservation
      rw [hrejects.reservationId] at hr₀
      obtain rfl := Option.some.inj (hrow.symm.trans hr₀)
      exact h.ended whole_work hs .work (by simp) hends fun hx =>
        h.expires hlife hrow hx rfl rfl rfl rfl hhanded
          (.inr (hrejects.refusedLate hends.responses hreceived hof hlate))

end

/-! ## Every run -/

/-- The states of a service, for which no nonces were sampled before, and its reconcilers. -/
def Reached (playerId origin : String) (fingerprint : Json → String) (sha256 : String → String)
    (fromIso : String → Option ℚ) (s : State playerId) : Prop :=
  ∃ sys, Sys.Blank sys ∧ sys.db.work.benchmarkProgress = ∅ ∧
    Relation.ReflTransGen (Step playerId origin fingerprint sha256 fromIso) { sys } s

section

variable {s s' : State playerId}

theorem Sound.blank {sys : Sys} (h : Sys.Blank sys)
    (hprogress : sys.db.work.benchmarkProgress = ∅) :
    Sound fingerprint origin sha256 fromIso ({ sys } : State playerId) where
  works := ⟨sys, h, .refl⟩
  archived := ⟨List.forall_mem_nil _, fun _ _ hmem => by cases hmem⟩
  sampled hsampled := by
    rw [hprogress] at hsampled
    cases hsampled
  replays := List.forall_mem_nil _
  visits := List.forall_mem_nil _
  results := List.forall_mem_nil _
  rooted := List.forall_mem_nil _
  checked := List.forall_mem_nil _
  proven := List.forall_mem_nil _
  lifetimes := List.forall_mem_nil _
  receipts := List.forall_mem_nil _
  upheld hr := by
    rw [h.initial.funds] at hr
    cases hr

theorem Reached.sound (h : Reached playerId origin fingerprint sha256 fromIso s) :
    Sound fingerprint origin sha256 fromIso s := by
  obtain ⟨sys, hblank, hprogress, hrun⟩ := h
  induction hrun with
  | refl => exact .blank hblank hprogress
  | tail _ hstep ih => exact hstep.sound ih

/-- A reconciler's steps are transactions of the service, or reads. -/
theorem Step.serves (h : Step playerId origin fingerprint sha256 fromIso s s') :
    s'.sys = s.sys ∨ ∃ a, Sys.Whole s.sys a ∧ Sys.Step s.sys a s'.sys := by
  cases h with
  | served ha _ hs _ => exact .inr ⟨_, ha, hs⟩
  | rooted _ _ _ _ _ hpost => exact .inr ⟨_, whole_work, .work (.confirmPayload hpost)⟩
  | sampled _ _ _ hpost => exact .inr ⟨_, whole_work, .work (.sampled hpost)⟩
  | proven _ _ hpost => exact .inr ⟨_, whole_work, .work (.confirmPayload hpost)⟩
  | ended _ _ hpost =>
      refine .inr ⟨_, fun part heq => ?_, .funds (.recordOutcome hpost)⟩
      obtain rfl := Action.funds.inj heq
      rfl
  | expiredUnsent _ _ hpost => exact .inr ⟨_, whole_work, .work (.expireUnsentResults hpost)⟩
  | expiredRejected _ _ _ hpost =>
      exact .inr ⟨_, whole_work, .work (.expireRejectedResults hpost)⟩
  | _ => exact .inl rfl

end

/-- A run of the service without its reconcilers, in which one observation is recorded. -/
theorem served_run {kept : Json} {t t' : Sys} (ht : Sys.Reachable Sys.Whole t)
    (hnone : t.db.observation.blocks = ∅)
    (h : Leads Sys.Step (fun s a => Sys.Whole s a ∧ reconciles a = false ∧
      ∀ source c seen, a = .observe (.record source c seen) →
        ∃ c', c = some c' ∧ Archives fingerprint kept kept source c') t t') :
    ∃ captures, Relation.ReflTransGen (Step playerId origin fingerprint sha256 fromIso)
        { sys := t } { sys := t', captures } ∧
      ∀ id b, t'.db.observation.blocks.lookup id = some b → (b.attemptId, kept) ∈ captures := by
  have hall : Sys.Reachable Sys.Whole t' ∧
      ∃ captures, Relation.ReflTransGen (Step playerId origin fingerprint sha256 fromIso)
          { sys := t } { sys := t', captures } ∧
        ∀ id b, t'.db.observation.blocks.lookup id = some b → (b.attemptId, kept) ∈ captures := by
    induction h with
    | refl =>
        refine ⟨ht, [], .refl, fun id b hb => ?_⟩
        rw [hnone] at hb
        cases hb
    | @step u u' a _ ha hs ih =>
        obtain ⟨hu, captures, hrun, hkept⟩ := ih
        obtain ⟨hwhole, hne, harchives⟩ := ha
        refine ⟨hu.step hwhole hs, ?_⟩
        have hold {id : String} {b b' : ObservedBlock}
            (hb : u.db.observation.blocks.lookup id = some b) (hx : b.Extends b') :
            (b'.attemptId, kept) ∈ captures := hx.attemptId ▸ hkept id b hb
        by_cases hrecord : ∃ source c seen, a = .observe (.record source c seen)
        · obtain ⟨source, c, seen, rfl⟩ := hrecord
          obtain ⟨c, rfl, hc⟩ := harchives source c seen rfl
          refine ⟨_, hrun.tail (.served hwhole hne hs (.block hc)), fun id b' hb' => ?_⟩
          rcases hs.block_back hu.lawful hb' with ⟨b, hb, hx⟩ | ⟨_, _, _, heq, -, -, -, rfl, -⟩
          · exact List.mem_cons_of_mem _ (hold hb hx)
          · obtain ⟨rfl, -, -⟩ := ObservationAction.record.inj (Action.observe.inj heq)
            exact List.mem_cons_self ..
        · have hother : ∀ source c seen, a ≠ .observe (.record source (some c) seen) :=
            fun source c seen heq => hrecord ⟨source, _, seen, heq⟩
          refine ⟨_, hrun.tail (.served hwhole hne hs (.other hother)), fun id b' hb' => ?_⟩
          rcases hs.block_back hu.lawful hb' with ⟨b, hb, hx⟩ | ⟨_, _, _, heq, -⟩
          · exact hold hb hx
          · exact absurd heq (hother _ _ _)
  exact hall.2

/-- What is on record of a reservation is followed by what is on record later. -/
theorem Reached.follows {s s' : State playerId}
    (h : Reached playerId origin fingerprint sha256 fromIso s)
    (hrun : Relation.ReflTransGen (Step playerId origin fingerprint sha256 fromIso) s s')
    {id : Uuid}
    {r : Reservation} (hr : s.sys.db.funds.reservations.lookup id = some r) (hover : r.Over) :
    ∃ r', s'.sys.db.funds.reservations.lookup id = some r' ∧ r.SameEnd r' := by
  have hsound := h.sound
  have hall : Sound fingerprint origin sha256 fromIso s' ∧
      ∃ r', s'.sys.db.funds.reservations.lookup id = some r' ∧ r.SameEnd r' := by
    induction hrun with
    | refl => exact ⟨hsound, r, hr, .refl r⟩
    | tail _ hstep ih =>
        obtain ⟨hsound₁, r₁, hr₁, hsame⟩ := ih
        refine ⟨hstep.sound hsound₁, ?_⟩
        rcases hstep.serves with heq | ⟨a, ha, hs⟩
        · rw [heq]
          exact ⟨r₁, hr₁, hsame⟩
        · obtain ⟨r₂, hr₂, hf⟩ := (hs.later hsound₁.works ha).reservations hr₁
          exact ⟨r₂, hr₂, hsame.trans (hf.sameEnd (hsame.over.mpr hover))⟩
  exact hall.2

end Reconciliation

/-- Only for work that has no outcome yet is a POST authorised. -/
theorem Sys.Step.begins_open {s s' : Sys} {intentId : Uuid}
    (h : Step s (.work (.begin intentId)) s') {i : ProtocolIntent}
    (hi : s.db.work.protocolOutbox.lookup intentId = some i) :
    ∃ r, s.db.funds.reservations.lookup i.reservationId = some r ∧ ¬ r.Over := by
  cases h with
  | work h =>
      cases h with
      | begin h =>
          obtain ⟨row, intent, hlocked, -, hcases⟩ := Submissions.begin_spec h
          obtain ⟨hi', hrow⟩ := Submissions.locked_spec hlocked
          obtain rfl := Option.some.inj (hi.symm.trans hi')
          rcases hcases with ⟨-, found, u, db₁, payload, -, -, hmark, -⟩ | ⟨-, hstate, -⟩
          · obtain ⟨r, _, events, hr, hstate, -⟩ := markSubmitting_spec hmark
            exact ⟨r, hr, by simp [Reservation.Over, hstate]⟩
          · exact ⟨row, hrow, fun hover => hover.not_accepted hstate⟩

/-- In every state that a service and its reconcilers reach, in whatever order they interleave,
behind each outcome stands what is kept of a saved block and has its digest: confirmed proof of
work that the block counts as active, or a confirmed fraud, with proofs that TIG has taken, and a
saved block that confirms the benchmark with the root of the member's own results; or, for work
that has expired, a feed without any record of it, a lifetime that both blocks agree on and that
has strictly elapsed, and no results sent, or results that TIG has refused as late.  Work with an
outcome was handed over, the outcome is final, and nothing is sent for it any more. -/
theorem outcomes_upheld {playerId origin : String} {fingerprint : Json → String}
    {sha256 : String → String} {fromIso : String → Option ℚ}
    {s : Reconciliation.State playerId}
    (h : Reconciliation.Reached playerId origin fingerprint sha256 fromIso s) {id : Uuid}
    {r : Reservation}
    (hr : s.sys.db.funds.reservations.lookup id = some r)
    (hover : r.state = .active ∨ r.state = .verificationFailed ∨ r.state = .expired) :
    Reconciliation.Upheld fingerprint origin sha256 fromIso s id r ∧
    (∀ s', Relation.ReflTransGen
        (Reconciliation.Step playerId origin fingerprint sha256 fromIso) s s' →
      ∃ r', s'.sys.db.funds.reservations.lookup id = some r' ∧ r'.state = r.state ∧
        r'.activeAtHeight = r.activeAtHeight) ∧
    ∀ intentId i s', s.sys.db.work.protocolOutbox.lookup intentId = some i →
      i.reservationId = id → ¬ Sys.Step s.sys (.work (.begin intentId)) s' := by
  refine ⟨h.sound.upheld hr hover, fun s' hrun => ?_, fun intentId i s' hi hid hstep => ?_⟩
  · obtain ⟨r', hr', hsame⟩ := h.follows hrun hr hover
    exact ⟨r', hr', hsame.state, hsame.activeAtHeight⟩
  · obtain ⟨r₀, hr₀, hopen⟩ := hstep.begins_open hi
    rw [hid] at hr₀
    obtain rfl := Option.some.inj (hr.symm.trans hr₀)
    exact hopen hover

namespace ExpiryDay

/-- A block in which the pool is not active and has nothing to show. -/
def observation (blockId : String) (height round : ℤ) : Json :=
  let none : Json := .arr []
  let kinds (value : Json) : Json := .obj [("benchmark", value), ("challenge", value),
    ("code", value), ("opow", value)]
  let config : Json := .obj [("challenges",
      .obj [("challenge", .obj [("lifespan_period", .int 1)])]),
    ("rounds", .obj [("blocks_per_round", .int 2)])]
  let details : Json := .obj [("height", .int height), ("num_active", kinds (.int 0)),
    ("prev_block_id", .str ("before " ++ blockId)), ("round", .int round), ("timestamp", .int 0)]
  .obj [("algorithms", .obj [("codes", none)]), ("challenges", .obj [("challenges", none)]),
    ("end", .obj [("block", .obj [("config", config), ("details", details),
      ("id", .str blockId)])]),
    ("format", .str "pool-scoped-v2"), ("opow", .obj [("opow", none)]), ("players", .obj []),
    ("pool_pending", LateDay.quietFeed), ("pool_player_id", .str "pool"),
    ("scope", .obj [("active_benchmark_count", .int 0),
      ("active_benchmark_ids_sha256", .str UploadDay.root)]),
    ("start", .obj [("block", .obj [("config", config),
      ("data", .obj [("active_ids", kinds none)]), ("details", details), ("id", .str blockId)])])]

def origin : String := "https://example.invalid"

/-- The digest of a block names it. -/
def fingerprint (value : Json) : String :=
  match value.get? "block_id" with
  | some (.str blockId) => "digest of " ++ blockId
  | _ => ""

def first : Json := observation "block-0" 0 1

def last : Json := observation "block-2" 2 2

def life : Reconciliation.Lifetime := ⟨"block-0", 0, 1, "block-2", 2⟩

/-- Is the observation recorded as the block, and kept as it is? -/
def recordedAs (observation : Json) (c : BlockStore.BlockCapture) : Bool :=
  (Protocol.archived fingerprint observation).toOption.any fun (given, snapshot) =>
    Protocol.stored fingerprint given = observation ∧ c.blockId = snapshot.blockId ∧
      c.height = snapshot.height ∧ c.previousId = snapshot.previousBlockId ∧
      c.round = snapshot.round ∧ c.timestamp = snapshot.timestamp ∧
      c.semanticDigest = Protocol.semantic fingerprint snapshot observation ∧
      (Protocol.roundLength observation).toOption = some c.blocksPerRound ∧
      Protocol.poolPlayerOf observation = some "pool" ∧
      (Protocol.validateSnapshot observation).toOption.all fun replayed =>
        let credited := replayed.credited (Protocol.feedsOf observation)
        c.snapshot.bundles = credited.bundles ∧
          c.snapshot.qualifiers.entries = credited.qualifiers.entries ∧
          c.snapshot.precommits.entries = credited.precommits.entries ∧
          c.snapshot.feeds.entries = credited.feeds.entries

theorem archives {observation : Json} {blockId : String} {height round : ℕ}
    (h : recordedAs observation (LateDay.blockAt blockId height round) = true) :
    Archives fingerprint observation observation (LateDay.source blockId)
      (LateDay.blockAt blockId height round) := by
  obtain ⟨⟨given, snapshot⟩, hgiven, hall⟩ := (Option.any_eq_true _ _).mp h
  obtain ⟨hstored, hid, hheight, hprevious, hround, htime, hdigest, hlength, hplayer, hread⟩ :=
    of_decide_eq_true hall
  refine ⟨⟨given, snapshot, eq_ok_of_toOption hgiven, hstored.symm, hid, hheight, hprevious,
    hround, htime, hdigest⟩, hplayer.symm, eq_ok_of_toOption hlength, fun replayed hvalid => ?_⟩
  rw [hvalid] at hread
  obtain ⟨hbundles, hqualifiers, hprecommits, hfeeds⟩ := of_decide_eq_true hread
  exact BlockSnapshot.mk.injEq .. ▸
    ⟨hbundles, AList.ext hqualifiers, AList.ext hprecommits, AList.ext hfeeds⟩

/-- The block can be read, and has the digest of the observation. -/
def readable (db : Db) (observation : Json) (snapshot : Protocol.Snapshot) : Bool :=
  (BlockStore.read db snapshot.blockId).toOption.isSome ∧
    (db.observation.blocks.lookup snapshot.blockId).any fun block =>
      block.attemptId = "attempt " ++ snapshot.blockId ∧
        Protocol.semantic fingerprint snapshot observation = block.semanticDigest

theorem reads {s : Reconciliation.State "pool"} {replay : Replay}
    (h : readable s.sys.db replay.observation replay.snapshot = true)
    (hkept : ("attempt " ++ replay.snapshot.blockId, replay.observation) ∈ s.captures) :
    Reconciliation.ReadsBlock fingerprint s replay.snapshot.blockId replay := by
  obtain ⟨hread, hblock⟩ := of_decide_eq_true h
  obtain ⟨saved, hsaved⟩ := Option.isSome_iff_exists.mp hread
  obtain ⟨block, hlookup, hall⟩ := (Option.any_eq_true _ _).mp hblock
  obtain ⟨hattempt, hdigest⟩ := of_decide_eq_true hall
  exact ⟨⟨saved, eq_ok_of_toOption hsaved⟩, block, hlookup, hattempt ▸ hkept, hdigest⟩

/-- The work of the day is handed over, and its results never come. -/
def run : Result (Db × Reservation × Protocol.Snapshot × Protocol.Snapshot ×
    Reconciliation.Feed × Db × Db × Reservation) := do
  let worked ← LateDay.worked
  let db ← BlockStore.record worked (LateDay.source "block-2")
    (some (LateDay.blockAt "block-2" 2 2)) none
  let row ← fetch (db.funds.reservations.lookup "benchmark") (.funds "unknown reservation")
  let before ← Protocol.validateSnapshot first
  let after ← Protocol.validateSnapshot last
  let feed ← Reconciliation.playerFeed last "pool"
  let (db', _) ← Reconciliation.expireUnsentResults db "benchmark" after.height
    (life.evidence "tig-unsent-results-expiry-v1")
  let row' ← fetch (db'.funds.reservations.lookup "benchmark") (.funds "unknown reservation")
  return (worked, row, before, after, feed, db, db', row')

theorem checks : run.toOption.any (fun (worked, row, before, after, feed, db, _, row') =>
    row.state = .accepted ∧ row.benchmarkId = some CreditedDay.benchmarkId ∧
      row.handedOverAt.isSome ∧ readable worked first before ∧ readable db first before ∧
      readable db last after ∧ after.blockId = "block-2" ∧
      (Reconciliation.verdict feed after.height CreditedDay.benchmarkId).toOption = some .absent ∧
      (Reconciliation.confirmed (feed.benchmarks.lookup CreditedDay.benchmarkId)
        after.height).toOption
        = some false ∧
      row.selection.get? "block_id" = some (.str before.blockId) ∧
      Reconciliation.expiredLifetime row (first, before) last after = some life ∧
      row'.state = .expired) = true ∧
    recordedAs first (LateDay.blockAt "block-0" 0 1) = true ∧
    recordedAs last (LateDay.blockAt "block-2" 2 2) = true := by
  decide +kernel

/-- The steps of the day, up to the transaction that records the outcome. -/
theorem reached : ∃ (s : Reconciliation.State "pool") (r : Reservation),
    Reconciliation.Reached "pool" origin fingerprint id (fun _ => none) s ∧
      s.sys.db.funds.reservations.lookup "benchmark" = some r ∧ r.state = .expired := by
  obtain ⟨hday, hfirstKept, hlastKept⟩ := checks
  obtain ⟨⟨_, _, _, _, _, _, _, _⟩, hday, hall⟩ := (Option.any_eq_true _ _).mp hday
  obtain ⟨haccepted, hnamed, hhanded, hseen, hbefore, hafter, hlastId, hverdict, hconfirmed,
    hchosen, hlife, hexpired⟩ := of_decide_eq_true hall
  have hrun := eq_ok_of_toOption hday
  simp only [run, bind_eq_ok, fetch_eq_ok, pure_eq_ok, Prod.mk.injEq] at hrun
  obtain ⟨db₁, hworked, db₂, hrecord, row, hrow, before, hfirst, after, hlast, feed, hfeed,
    ⟨db₃, out⟩, hend, row', hrow', rfl, rfl, rfl, rfl, rfl, rfl, rfl, rfl⟩ := hrun
  let opening : Replay := ⟨first, before, hfirst⟩
  let closing : Replay := ⟨last, after, hlast⟩
  let v : Reconciliation.Visit "pool" :=
    ⟨"benchmark", row, CreditedDay.benchmarkId, closing, feed, hnamed, hfeed⟩
  have hfirstCapture := archives hfirstKept
  obtain ⟨captures, hworking, hkept⟩ := @Reconciliation.served_run "pool" origin fingerprint id
    (fun _ => none) first ⟨migrated, Held.empty⟩ ⟨db₁, Held.empty⟩ ⟨_, Sys.initial_migrated, .refl⟩
    rfl (LateDay.worked_leads (fun _ _ ha _ hrecord => ⟨LateDay.acts_whole ha,
      (UploadDay.acts_plain ha).1, fun source c seen heq => by
        obtain ⟨rfl, rfl⟩ := hrecord source c seen heq
        exact ⟨_, rfl, hfirstCapture⟩⟩) hworked)
  have hwhole {s : Sys} {o : ObservationAction} : Sys.Whole s (.observe o) :=
    fun _ heq => by cases heq
  have hrecorded := hworking.tail
    (.served hwhole rfl (.observe (.record hrecord)) (.block (archives hlastKept)))
  have hopening : ("attempt " ++ before.blockId, first) ∈ captures := by
    obtain ⟨-, hblock⟩ := of_decide_eq_true hseen
    obtain ⟨block, hlookup, hall⟩ := (Option.any_eq_true _ _).mp hblock
    rw [← (of_decide_eq_true hall).1]
    exact hkept _ _ hlookup
  have hclosing : ("attempt " ++ after.blockId, last) ∈
      (("attempt block-2", last) :: captures) := by
    rw [hlastId]
    exact List.mem_cons_self ..
  have hopened := hrecorded.tail (.read (@reads _ opening hbefore
    (List.mem_cons_of_mem _ hopening)))
  have hread := hopened.tail (.read (@reads _ closing hafter hclosing))
  have hvisited := hread.tail (@Reconciliation.Step.visited _ _ _ _ _ _ v
    (List.mem_cons_self ..) hrow haccepted)
  have hpassed := hvisited.tail (.passed (List.mem_cons_self ..) (eq_ok_of_toOption hconfirmed))
  have hboth : opening ∈ [closing, opening] := List.mem_cons_of_mem _ (List.mem_cons_self ..)
  have hlived := hpassed.tail (.lived (List.mem_cons_self ..) (eq_ok_of_toOption hverdict)
    hboth hchosen hlife)
  have hended := hlived.tail (.expiredUnsent (List.mem_cons_self ..) hhanded hend)
  exact ⟨_, row', ⟨_, UploadDay.blank_migrated, rfl, hended⟩, hrow', hexpired⟩

end ExpiryDay

/-- Behind the work that expired stand the two blocks of the day. -/
theorem outcomes_upheld_expired : ∃ (s : Reconciliation.State "pool") (r : Reservation),
    Reconciliation.Reached "pool" ExpiryDay.origin ExpiryDay.fingerprint id (fun _ => none) s ∧
      s.sys.db.funds.reservations.lookup "benchmark" = some r ∧ r.state = .expired ∧
      Reconciliation.Upheld ExpiryDay.fingerprint ExpiryDay.origin id (fun _ => none) s
        "benchmark" r := by
  obtain ⟨s, r, hs, hr, hstate⟩ := ExpiryDay.reached
  exact ⟨s, r, hs, hr, hstate, (outcomes_upheld hs hr (.inr (.inr hstate))).1⟩

end TigPool
