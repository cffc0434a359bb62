/-
# `TigPool.Outbox` — what each transaction does to the outbox

The list of `Db.Dispatches` is complete: each transaction of the service, read off its
operation, does to submissions what one entry says.  So the tables are coupled in every
state that the service reaches.
-/
import TigPool.Coupling

namespace TigPool

open Basis

/-! ## Every transaction -/

section

variable {db db' : Db}

namespace WorkRequests

/-- The intent is on record, or it is written. -/
theorem enqueue_cases {reservationId identity : Uuid} {kind : IntentKind} {payload : Json}
    (h : enqueue db reservationId kind payload identity = .ok db') :
    (db' = db ∧ ∃ intentId i, db.work.protocolOutbox.lookup intentId = some i ∧
        i.reservationId = reservationId ∧ i.kind = kind) ∨
      (∀ intentId i, db.work.protocolOutbox.lookup intentId = some i →
        ¬ (i.reservationId = reservationId ∧ i.kind = kind)) ∧
      identity ∉ db.work.protocolOutbox ∧ db' = db.putIntent identity
        { reservationId, kind, payload, payloadText := payload, digest := payload,
          createdAt := db.clock } := by
  unfold enqueue at h
  split at h
  next intentId i hfound =>
    simp only [bind_eq_ok, require_eq_ok, exists_const, pure_eq_ok] at h
    obtain ⟨-, rfl⟩ := h
    obtain ⟨hi, hof⟩ := Table.find_eq_some hfound
    obtain ⟨hid, hkind⟩ := of_decide_eq_true hof
    exact .inl ⟨rfl, intentId, i, hi, hid, hkind⟩
  next hnone =>
    simp only [bind_eq_ok, require_eq_ok, exists_const, pure_eq_ok] at h
    obtain ⟨hfresh, rfl⟩ := h
    refine .inr ⟨fun intentId i hi => ?_, hfresh, rfl⟩
    simpa using Table.find_eq_none.mp hnone intentId i hi

theorem reserveNext_dispatches (hc : db.Coupled) {blockId : String}
    {choose : WorkRequest → Result (Option Selection)} {queue : List Uuid}
    {around : Surroundings} {pilot : WorkRequest → Result Unit} {fresh : FreshIds}
    {out : Option Uuid} (hchoose : Chooses db blockId choose)
    (h : reserveNext db blockId choose queue around pilot fresh = .ok (db', out)) :
    db.Dispatches db' := by
  rcases reserveNext_spec h with ⟨rfl, -⟩ | ⟨block, -, -, hqueue⟩
  · exact .rests (.refl _)
  rcases tryQueue_spec hqueue with ⟨rfl, -⟩ | ⟨requestId, -, reservation, -, hattempt⟩
  · exact .rests (.of_eq rfl rfl rfl fun _ => rfl)
  obtain ⟨request, selection, -, -, hselection, htry⟩ := attempt_spec hattempt
  obtain ⟨reserved, hreserve, hhand⟩ := tryReserve_spec htry
  simp only [handOver, bind_eq_ok, pure_eq_ok] at hhand
  obtain ⟨db₁, henqueue, rfl⟩ := hhand
  have hproposed : Proposed selection.payload := by
    obtain ⟨-, -, playerId, challengeId, algorithmId, computeType, tracks, heq⟩ :=
      hchoose request selection hselection
    exact ⟨playerId, blockId, challengeId, algorithmId, computeType, tracks, heq⟩
  rcases reserve_spec hreserve with ⟨rfl, row, hrow, -, -⟩ |
    ⟨row, ledger, events, rfl, rfl, hmade, -, -, -, -, hpayload, -, hfresh, -, hunsent⟩
  · rcases enqueue_cases henqueue with ⟨rfl, -⟩ | ⟨hnone, -, -⟩
    · exact .rests (.of_eq rfl rfl rfl fun _ => rfl)
    · obtain ⟨intentId, i, hi, hof⟩ := hc.intent hrow
      exact absurd ⟨hof.reservationId, hof.kind⟩ (hnone intentId i hi)
  · rcases enqueue_cases henqueue with ⟨-, intentId, i, hi, hid, -⟩ | ⟨-, hnew, rfl⟩
    · obtain ⟨r, hr⟩ := hc.reservation hi
      rw [hid] at hr
      exact absurd (AList.lookup_isSome.mp (Option.isSome_of_eq_some hr)) hfresh
    · refine .reserved hfresh hnew hmade.state ⟨hpayload.symm, ?_, hproposed⟩ ⟨rfl, rfl⟩ rfl rfl rfl
        rfl rfl hunsent
      rw [hmade.payloadText, hpayload]

end WorkRequests

namespace Submissions

variable {identity : Uuid}

theorem checkPreflight_fence {row : Reservation} {intent : ProtocolIntent} {preflight : Preflight}
    {u : Unit} (h : checkPreflight db row intent preflight = .ok u) (intentId : Uuid)
    (i : ProtocolIntent) (hi : db.work.protocolOutbox.lookup intentId = some i)
    (hkey : i.matchKey = some (matchKey intent.payloadText)) : i.state ≠ .uncertain := by
  simp only [checkPreflight, bind_eq_ok, require_eq_ok, exists_const] at h
  have hnone := Table.any_eq_false.mp h.2.2.2.2.2 intentId i hi
  simp only [hkey, true_and, decide_eq_false_iff_not] at hnone
  exact hnone

theorem begin_dispatches {preflight : Option Preflight} {around : Surroundings}
    {out : ProtocolIntent}
    (h : Submissions.begin db identity preflight around = .ok (db', out)) :
    db.Dispatches db' := by
  obtain ⟨row, i, hlocked, hready, hcases⟩ := begin_spec h
  obtain ⟨hi, hrow⟩ := locked_spec hlocked
  rcases hcases with ⟨hkind, found, u, db₁, payload, -, hcheck, hmark, rfl⟩ | ⟨hkind, -, -, -, rfl⟩
  · obtain ⟨r, _, events, hr, hstate, -, -, hevents, -, rfl⟩ := markSubmitting_spec hmark
    refine .authorised hi hkind hready hr hstate (checkPreflight_fence hcheck) rfl rfl rfl ?_
    intro id hne
    rcases hevents with rfl | ⟨details, rfl⟩
    · rfl
    · refine AList.lookup_insert_ne ?_
      intro heq
      exact hne (Prod.mk.inj heq).1
  · exact .rests (.of_put hi hkind (.sent hready))

theorem cancelUnsent_dispatches (hc : db.Coupled) {evidence : Json}
    (h : cancelUnsent db identity evidence = .ok db') : db.Dispatches db' := by
  simp only [cancelUnsent, bind_eq_ok, require_eq_ok, exists_const] at h
  obtain ⟨-, ⟨row, i⟩, hlocked, h⟩ := h
  obtain ⟨hi, hrow⟩ := locked_spec hlocked
  split at h
  next =>
    obtain rfl := Except.ok.inj h
    exact .rests (.refl _)
  next =>
    simp only [bind_eq_ok, require_eq_ok, exists_const, pure_eq_ok] at h
    obtain ⟨⟨hready, hkind⟩, ⟨db₁, out⟩, hrelease, rfl⟩ := h
    obtain ⟨r, hr, ⟨-, hdone⟩ | ⟨ledger, events, actual, hstate, hunsent, rfl⟩⟩ :=
      releaseUnstarted_spec hrelease
    · have hcouples := (hc.couples hi hkind hr).2
      simp [Db.Couples, hready, hdone] at hcouples
    · exact .withdrawn hi hkind hready hr hstate rfl rfl rfl hunsent

/-- The receipt is on record, or it is written. -/
theorem receipt_cases {reservationId : Uuid} {benchmarkId : String} {evidence : Json}
    (h : receipt db reservationId benchmarkId evidence = .ok db') :
    (db' = db ∧ (db.work.precommitReceipts.lookup reservationId).isSome) ∨
      (∀ id r, db.funds.reservations.lookup id = some r → r.benchmarkId = some benchmarkId →
        id = reservationId) ∧
      (∀ id x, db.work.precommitReceipts.lookup id = some x → x.benchmarkId ≠ benchmarkId) ∧
      db.work.precommitReceipts.lookup reservationId = none ∧
      db' = { db with work := { db.work with
        precommitReceipts :=
          AList.insert reservationId ⟨benchmarkId, evidence⟩ db.work.precommitReceipts } } := by
  simp only [receipt, bind_eq_ok, require_eq_ok, exists_const] at h
  obtain ⟨-, h⟩ := h
  split at h
  next hsome =>
    simp only [bind_eq_ok, require_eq_ok, exists_const, pure_eq_ok] at h
    obtain ⟨-, rfl⟩ := h
    exact .inl ⟨rfl, by rw [hsome]; rfl⟩
  next hnone =>
    simp only [bind_eq_ok, require_eq_ok, exists_const, pure_eq_ok] at h
    obtain ⟨hother, hused, rfl⟩ := h
    refine .inr ⟨fun id r hr hid => ?_, fun id x hx => ?_, hnone, rfl⟩
    · simpa [hid] using Table.any_eq_false.mp hother id r hr
    · simpa using Table.any_eq_false.mp hused id x hx

/-- Saving a response does not touch the outbox. -/
theorem saveResponse_rests {identity responseId : Uuid} {response : Json}
    (h : (saveResponse db identity response responseId).Rests db') : db.Rests db' :=
  ⟨h.outbox, h.receipts, h.reservations, h.marks⟩

theorem recordResponse_dispatches (hc : db.Coupled) {response : Wire} {responseId : Uuid}
    {limits : Wire → Bool} {out : Bool}
    (h : recordResponse db identity response responseId limits = .ok (db', out)) :
    db.Dispatches db' := by
  obtain ⟨row, i, stored, db₁, hlocked, hstate, -, hreceipt, hput⟩ := recordResponse_spec h
  obtain ⟨hi, hrow⟩ := locked_spec hlocked
  rcases hreceipt with ⟨benchmarkId, hanswer, hreceipt⟩ | ⟨hno, rfl⟩
  · have hkind := (readAnswer_precommit hanswer).1
    have hcouples := (hc.couples hi hkind hrow).2
    rcases hstate with hstate | hstate
    · simp only [Db.Couples, hstate] at hcouples
      rcases receipt_cases hreceipt with ⟨-, hsome⟩ | ⟨-, hfresh, hnone, rfl⟩
      · change (db.work.precommitReceipts.lookup i.reservationId).isSome at hsome
        rw [hcouples.2.1] at hsome
        cases hsome
      rcases hput with ⟨hunknown, -⟩ | ⟨-, -, rfl⟩
      · rw [hanswer] at hunknown
        cases hunknown hstate
      · refine .answered hi hkind hstate ?_ rfl rfl rfl fun _ => rfl
        exact hfresh
    · simp only [Db.Couples, hstate] at hcouples
      obtain ⟨x, hx, -⟩ := hcouples
      rcases hput with ⟨-, rfl⟩ | ⟨hun, -⟩
      · rcases receipt_cases hreceipt with ⟨rfl, -⟩ | ⟨-, -, hnone, -⟩
        · exact .rests (.of_eq rfl rfl rfl fun _ => rfl)
        · change db.work.precommitReceipts.lookup i.reservationId = none at hnone
          rw [hx] at hnone
          cases hnone
      · rw [hstate] at hun
        cases hun
  · rcases hput with ⟨-, rfl⟩ | ⟨hun, hknown, rfl⟩
    · exact .rests (.of_eq rfl rfl rfl fun _ => rfl)
    · have hpayload : readAnswer i.kind response = .payload := by
        cases hanswer : readAnswer i.kind response with
        | precommit benchmarkId => exact absurd hanswer (hno benchmarkId)
        | payload => rfl
        | unknown => exact absurd hanswer hknown
      exact .rests (saveResponse_rests (.of_put hi (readAnswer_payload hpayload) (.answered hun)))

theorem definitiveRejection_dispatches (hc : db.Coupled) {evidence : Json} {actualFee : ℤ}
    (h : definitiveRejection db identity evidence actualFee = .ok db') : db.Dispatches db' := by
  simp only [definitiveRejection, bind_eq_ok, require_eq_ok, exists_const, pure_eq_ok] at h
  obtain ⟨-, ⟨row, i⟩, hlocked, ⟨hkind, hun⟩, -, ⟨db₁, out⟩, hrelease, rfl⟩ := h
  obtain ⟨hi, hrow⟩ := locked_spec hlocked
  obtain ⟨r, hr, ⟨-, hdone⟩ | ⟨ledger, events, actual, hstate, hunsent, rfl⟩⟩ :=
    releaseUnstarted_spec hrelease
  · change i.state = .uncertain at hun
    have hcouples := (hc.couples hi hkind hr).2
    simp [Db.Couples, hun, hdone] at hcouples
  · exact .refused hi hkind hun hr hstate rfl rfl rfl hunsent

theorem recoverPrecommit_dispatches (hc : db.Coupled) {precommits : List Json} {evidence : Json}
    {out : Option String}
    (h : recoverPrecommit db identity precommits evidence = .ok (db', out)) :
    db.Dispatches db' := by
  obtain ⟨row, i, preflight, hlocked, hkind, hun, -,
    ⟨-, rfl⟩ | ⟨benchmarkId, db₁, -, -, -, hreceipt, rfl⟩⟩ := recoverPrecommit_spec h
  · exact .rests (.refl _)
  obtain ⟨hi, hrow⟩ := locked_spec hlocked
  have hcouples := (hc.couples hi hkind hrow).2
  simp only [Db.Couples, hun] at hcouples
  rcases receipt_cases hreceipt with ⟨-, hsome⟩ | ⟨-, hfresh, hnone, rfl⟩
  · rw [hcouples.2.1] at hsome
    cases hsome
  · exact .answered hi hkind hun hfresh rfl rfl rfl fun _ => rfl

theorem publishAssignment_dispatches {reservationId out : Uuid} {precommit evidence : Json}
    {snapshot : Snapshot} {artifactOrigin : String}
    (h : publishAssignment db reservationId precommit snapshot evidence artifactOrigin
      = .ok (db', out)) : db.Dispatches db' := by
  simp only [publishAssignment, bind_eq_ok, require_eq_ok, exists_const, fetch_eq_ok] at h
  obtain ⟨row, -, payload, -, ⟨benchmarkId, fee⟩, -, receipt, hreceipt, rfl, archive, -, haccept⟩ :=
    h
  obtain ⟨r, hr, rfl | ⟨ledger, events, actual, hstate, -, -, -, hunsent, rfl⟩⟩ :=
    accept_spec haccept
  · exact .rests (.refl _)
  · exact .published hr hstate hreceipt rfl rfl rfl hunsent

theorem intentOf_spec {reservationId : Uuid} {kind : IntentKind} {i : ProtocolIntent}
    (h : intentOf db reservationId kind = some (identity, i)) :
    db.work.protocolOutbox.lookup identity = some i ∧ i.reservationId = reservationId ∧
      i.kind = kind := by
  obtain ⟨hi, hof⟩ := Table.find_eq_some h
  exact ⟨hi, of_decide_eq_true hof⟩

theorem confirmPayload_rests {reservationId : Uuid} {kind : IntentKind} {evidence : Json}
    (h : confirmPayload db reservationId kind evidence = .ok db') : db.Rests db' := by
  simp only [confirmPayload, bind_eq_ok, require_eq_ok, exists_const, fetch_eq_ok] at h
  obtain ⟨⟨hkind, -⟩, row, -, ⟨intentId, i⟩, hfound, -, h⟩ := h
  obtain ⟨hi, -, rfl⟩ := intentOf_spec hfound
  split at h
  next hun =>
    obtain rfl := Except.ok.inj h
    exact .of_put hi hkind (.answered hun)
  next =>
    obtain rfl := Except.ok.inj h
    exact .refl _

theorem retireUnsentPayload_rests {out : Bool}
    (h : retireUnsentPayload db identity = .ok (db', out)) : db.Rests db' := by
  simp only [retireUnsentPayload, bind_eq_ok] at h
  obtain ⟨⟨row, i⟩, hlocked, h⟩ := h
  obtain ⟨hi, -⟩ := locked_spec hlocked
  split at h
  next =>
    obtain ⟨rfl, -⟩ := Prod.mk.inj (Except.ok.inj h)
    exact .refl _
  next hcond =>
    simp only [not_or, not_not] at hcond
    obtain ⟨rfl, -⟩ := Prod.mk.inj (Except.ok.inj h)
    exact .of_put hi hcond.1 (.retired hcond.2.1)

theorem recordBinary_rests {reservationId : Uuid} {sourceUrl digest : String}
    (h : recordBinary db reservationId sourceUrl digest = .ok db') : db.Rests db' := by
  simp only [recordBinary, bind_eq_ok, require_eq_ok, exists_const] at h
  obtain ⟨row, -, -, h⟩ := h
  split at h
  next =>
    simp only [bind_eq_ok, require_eq_ok, exists_const, pure_eq_ok] at h
    obtain ⟨-, rfl⟩ := h
    exact .refl _
  next =>
    simp only [bind_eq_ok, require_eq_ok, exists_const, pure_eq_ok] at h
    obtain ⟨-, rfl⟩ := h
    exact .of_eq rfl rfl rfl fun _ => rfl

end Submissions

namespace MemberProtocol

theorem owned_spec {benchmarkId : String} {memberId identity : Uuid} {row : Reservation}
    (h : owned db benchmarkId memberId = .ok (identity, row)) :
    db.funds.reservations.lookup identity = some row ∧ row.benchmarkId = some benchmarkId := by
  simp only [owned, bind_eq_ok, require_eq_ok, exists_const, fetch_eq_ok, pure_eq_ok,
    Prod.mk.injEq] at h
  obtain ⟨⟨id, r⟩, hfound, -, rfl, rfl⟩ := h
  obtain ⟨hr, hof⟩ := Table.find_eq_some hfound
  exact ⟨hr, of_decide_eq_true hof⟩

theorem store_dispatches {identity intent : Uuid} {row : Reservation} {benchmarkId : String}
    {kind : IntentKind} {payload : Json} (hkind : kind ≠ .precommit)
    (hrow : db.funds.reservations.lookup identity = some row)
    (h : store db identity row benchmarkId kind payload intent = .ok db') : db.Dispatches db' := by
  simp only [store, bind_eq_ok, require_eq_ok, exists_const] at h
  obtain ⟨hhanded, h⟩ := h
  split at h
  next =>
    simp only [bind_eq_ok, require_eq_ok, exists_const, pure_eq_ok] at h
    obtain ⟨-, rfl⟩ := h
    exact .rests (.refl _)
  next =>
    simp only [bind_eq_ok, require_eq_ok, exists_const] at h
    obtain ⟨hstate, henqueue⟩ := h
    rcases WorkRequests.enqueue_cases henqueue with ⟨rfl, -⟩ | ⟨hnone, hfresh, rfl⟩
    · exact .rests (.of_eq rfl rfl rfl fun _ => rfl)
    · refine .uploaded ⟨hkind, rfl, ⟨row, hrow, hstate, hhanded⟩, fun hi => hnone _ _ hi⟩ hfresh rfl
        rfl rfl fun _ => rfl

theorem results_dispatches {benchmarkId : String} {memberId intent : Uuid} {merkleRoot : String}
    {qualities : List ℤ}
    (h : results db benchmarkId memberId merkleRoot qualities intent = .ok db') :
    db.Dispatches db' := by
  simp only [results, bind_eq_ok, require_eq_ok, exists_const] at h
  obtain ⟨-, -, ⟨identity, row⟩, howned, -, hstore⟩ := h
  exact store_dispatches (by decide) (owned_spec howned).1 hstore

theorem sampled_rests {benchmarkId : String} {nonces : List ℕ} {evidence : Json}
    (h : sampled db benchmarkId nonces evidence = .ok db') : db.Rests db' := by
  simp only [sampled, bind_eq_ok, require_eq_ok, exists_const] at h
  obtain ⟨-, ⟨identity, row⟩, -, -, h⟩ := h
  split at h
  next =>
    simp only [bind_eq_ok, require_eq_ok, exists_const, pure_eq_ok] at h
    obtain ⟨-, rfl⟩ := h
    exact .refl _
  next =>
    obtain rfl := Except.ok.inj h
    exact .of_eq rfl rfl rfl fun _ => rfl

theorem proofs_dispatches {blake3 : Blake3} {benchmarkId : String} {memberId intent : Uuid}
    {values : List Json} (h : proofs blake3 db benchmarkId memberId values intent = .ok db') :
    db.Dispatches db' := by
  simp only [proofs, bind_eq_ok, require_eq_ok, exists_const] at h
  obtain ⟨⟨identity, row⟩, howned, progress, -, result, -, count, -, nonces, -, -, hstore⟩ := h
  exact store_dispatches (by decide) (owned_spec howned).1 hstore

end MemberProtocol

namespace Reconciliation

/-- Each of the intents is retired, once or more, and the others stay. -/
theorem putIntents_lookup {intents : List (Uuid × ProtocolIntent)} {evidence : Json}
    (intentId : Uuid) : ((intents.foldl (fun db i =>
        db.putIntent i.1 { i.2 with state := .cancelled, evidence := some evidence })
        db).work.protocolOutbox.lookup intentId = db.work.protocolOutbox.lookup intentId) ∨
      ∃ i, (intentId, i) ∈ intents ∧ (intents.foldl (fun db i =>
        db.putIntent i.1 { i.2 with state := .cancelled, evidence := some evidence })
        db).work.protocolOutbox.lookup intentId
          = some { i with state := .cancelled, evidence := some evidence } := by
  induction intents generalizing db with
  | nil => exact .inl rfl
  | cons i intents ih =>
      rcases @ih (db.putIntent i.1 { i.2 with state := .cancelled, evidence := some evidence })
        with hsame | ⟨i', hi', hput⟩
      · rw [List.foldl_cons, hsame]
        by_cases hid : intentId = i.1
        · subst hid
          exact .inr ⟨i.2, List.mem_cons_self .., AList.lookup_insert _⟩
        · exact .inl (AList.lookup_insert_ne hid)
      · exact .inr ⟨i', List.mem_cons_of_mem _ hi', hput⟩

theorem expireUnsentResults_rests (hf : db.funds.Lawful) {reservationId : Uuid} {height : ℤ}
    {lifetime : Json} {out : Bool}
    (h : expireUnsentResults db reservationId height lifetime = .ok (db', out)) :
    db.Rests db' := by
  have hpays := expireUnsentResults_pays h
  simp only [expireUnsentResults, lockedReservation, bind_eq_ok, fetch_eq_ok] at h
  obtain ⟨row, hrow, h⟩ := h
  split at h
  next =>
    obtain ⟨rfl, -⟩ := Prod.mk.inj (Except.ok.inj h)
    exact .refl _
  next hcond =>
    simp only [not_or, not_not] at hcond
    obtain ⟨hstate, -, hready, -, -⟩ := hcond
    simp only [bind_eq_ok, pure_eq_ok, Prod.mk.injEq] at h
    obtain ⟨⟨db₁, id⟩, houtcome, rfl, -⟩ := h
    have hsome := (hf.rows.reservation hrow).shape.named (.inl hstate)
    refine .of_path hf hpays.path hpays.sends ?_ (fun intentId => ?_) ?_
    · rintro c (hc | hc)
      · exact hc.settled
      · rw [List.mem_singleton.mp hc]
        exact ⟨row, hrow, hsome⟩
    · rcases @putIntents_lookup db₁ _ (unsentEvidence lifetime _) intentId
        with hsame | ⟨i, hi, hput⟩
      · rw [hsame, (recordOutcome_moves houtcome).outbox]
        exact .same
      · rw [hput]
        obtain ⟨hmem, hof⟩ := List.mem_filter.mp hi
        obtain ⟨e, he, heq⟩ := List.mem_map.mp hmem
        obtain ⟨rfl, rfl⟩ := Prod.mk.inj heq
        have hlookup := Table.mem_entries_iff.mp he
        have hof := of_decide_eq_true hof
        rw [show db.work.protocolOutbox.lookup e.1 = some e.2 from hlookup]
        refine .turned ⟨hof.2, .retired ?_⟩
        by_contra hnot
        refine hready (List.any_eq_true.mpr ⟨_, hi, ?_⟩)
        simp [hnot]
    · obtain ⟨outbox, heq⟩ := @putIntents_frame db₁ _ (unsentEvidence lifetime _)
      rw [heq]
      exact (recordOutcome_moves houtcome).receipts

theorem expireRejectedResults_rests (hf : db.funds.Lawful) {reservationId : Uuid}
    {height : ℤ} {lifetime : Json} {receipt : Uuid × Json} {origin : String} {out : Bool}
    (h : expireRejectedResults db reservationId height lifetime receipt origin = .ok (db', out)) :
    db.Rests db' := by
  have hpays := expireRejectedResults_pays h
  simp only [expireRejectedResults, lockedReservation, bind_eq_ok, fetch_eq_ok] at h
  obtain ⟨row, hrow, h⟩ := h
  split at h
  next =>
    obtain ⟨rfl, -⟩ := Prod.mk.inj (Except.ok.inj h)
    exact .refl _
  next intentId i hfound =>
    split at h
    next =>
      obtain ⟨rfl, -⟩ := Prod.mk.inj (Except.ok.inj h)
      exact .refl _
    next hcond =>
      simp only [not_or, not_not] at hcond
      obtain ⟨hstate, hun, -, -⟩ := hcond
      simp only [bind_eq_ok, pure_eq_ok, Prod.mk.injEq] at h
      obtain ⟨⟨db₁, id⟩, houtcome, rfl, -⟩ := h
      obtain ⟨hi, -, hkind⟩ := Submissions.intentOf_spec hfound
      have hsome := (hf.rows.reservation hrow).shape.named (.inl hstate)
      have hmoves := recordOutcome_moves houtcome
      refine .of_path hf hpays.path hpays.sends ?_ (fun intentId' => ?_) hmoves.receipts
      · rintro c (hc | hc)
        · exact hc.settled
        · rw [List.mem_singleton.mp hc]
          exact ⟨row, hrow, hsome⟩
      · rw [← hmoves.outbox]
        refine Evolves.insert ?_ intentId'
        rw [hmoves.outbox, hi]
        exact .turned ⟨by rw [hkind]; decide, .refused hun⟩

end Reconciliation

theorem WorkStep.dispatches (hf : db.funds.Lawful) (hc : db.Coupled) {a : WorkAction}
    (h : WorkStep db a db') : db.Dispatches db' := by
  cases h with
  | create h =>
      obtain ⟨_, rfl⟩ := WorkRequests.create_asks h
      exact .rests (.of_eq rfl rfl rfl fun _ => rfl)
  | refresh h =>
      obtain ⟨_, rfl⟩ := WorkRequests.refresh_asks h
      exact .rests (.of_eq rfl rfl rfl fun _ => rfl)
  | get h =>
      obtain ⟨_, rfl⟩ := WorkRequests.get_asks h
      exact .rests (.of_eq rfl rfl rfl fun _ => rfl)
  | hasQueued => exact .rests (.of_eq rfl rfl rfl fun _ => rfl)
  | setPause => exact .rests (.of_eq rfl rfl rfl fun _ => rfl)
  | setCap h =>
      rcases setCap_cases h with rfl | ⟨cap, -, -, rfl⟩
      · exact .rests (.refl _)
      · exact .rests (.of_eq rfl rfl rfl fun _ => rfl)
  | reserveNext hchoose h => exact WorkRequests.reserveNext_dispatches hc hchoose h
  | recordBinary h => exact .rests (Submissions.recordBinary_rests h)
  | begin h => exact Submissions.begin_dispatches h
  | cancelUnsent h => exact Submissions.cancelUnsent_dispatches hc h
  | recordResponse h => exact Submissions.recordResponse_dispatches hc h
  | definitiveRejection h => exact Submissions.definitiveRejection_dispatches hc h
  | recoverPrecommit h => exact Submissions.recoverPrecommit_dispatches hc h
  | publishAssignment h => exact Submissions.publishAssignment_dispatches h
  | confirmPayload h => exact .rests (Submissions.confirmPayload_rests h)
  | retireUnsentPayload h => exact .rests (Submissions.retireUnsentPayload_rests h)
  | results h => exact MemberProtocol.results_dispatches h
  | sampled h => exact .rests (MemberProtocol.sampled_rests h)
  | proofs h => exact MemberProtocol.proofs_dispatches h
  | expireUnsentResults h => exact .rests (Reconciliation.expireUnsentResults_rests hf h)
  | expireRejectedResults h => exact .rests (Reconciliation.expireRejectedResults_rests hf h)

theorem FundsStep.rests {held : Held} {a : FundsAction} (hf : db.funds.Lawful)
    (hheld : held.Fits db)
    (hcreated : ∀ {id w}, db.funds.withdrawals.lookup id = some w → w.createdAt ≤ db.clock)
    (ha : Sys.FundsPart a = false) (h : FundsStep held db a db') : db.Rests db' := by
  have hmoves := h.moves hf hheld hcreated
  have hsettled (hdoes : ∀ c, a.does db.funds c → c.Settled db.funds) : db.Rests db' :=
    .of_moves hf hmoves fun c hc => hc.elim Change.Quiet.settled (hdoes c)
  have hprogressed {id : Uuid} {r : Reservation}
      (hr : db.funds.reservations.lookup id = some r) (hstate : r.state = .accepted)
      (hdoes : ∀ c, a.does db.funds c → c = .progressed id) : db.Rests db' :=
    hsettled fun c hc => by
      rw [hdoes c hc]
      exact ⟨r, hr, (hf.rows.reservation hr).shape.named (.inl hstate)⟩
  cases h with
  | reserve | markSubmitting | accept | releaseUnstarted => cases ha
  | acknowledge h =>
      obtain ⟨r, hr, rfl | ⟨events, hstate, -, -⟩⟩ := acknowledge_spec h
      · exact .refl _
      · exact hprogressed hr hstate fun _ hc => hc
  | recordOutcome h =>
      obtain ⟨r, hr, ⟨rfl, -⟩ | ⟨events, height, hstate, -, -⟩⟩ := recordOutcome_spec h
      · exact .refl _
      · exact hprogressed hr hstate fun _ hc => hc
  | _ =>
      refine hsettled ?_
      simp_all [FundsAction.does, Change.Settled]

end

theorem Sys.Step.dispatches {s s' : Sys} {a : Action} (hs : s.Lawful) (hc : s.db.Coupled)
    (ha : Whole s a) (h : Step s a s') : s.db.Dispatches s'.db := by
  cases h with
  | funds h => exact .rests (h.rests hs.funds hs.held hs.created (ha _ rfl))
  | report h =>
      obtain ⟨_, rfl⟩ := h.frame
      exact .rests (.of_eq rfl rfl rfl fun _ => rfl)
  | observe h =>
      obtain ⟨_, rfl⟩ := h.frame
      exact .rests (.of_eq rfl rfl rfl fun _ => rfl)
  | work h => exact h.dispatches hs.funds hc
  | hold h => exact .rests (.of_moves hs.funds (HoldStep.moves h) fun _ hc => hc.settled)
  | tick => exact .rests (.of_eq rfl rfl rfl fun _ => rfl)

/-! ## Every run -/

namespace Sys

variable {s : Sys}

theorem Initial.coupled (h : s.Initial) : s.db.Coupled where
  intent hr := by
    rw [h.funds] at hr
    cases hr
  reservation hi := by
    rw [h.outbox] at hi
    cases hi
  couples hi := by
    rw [h.outbox] at hi
    cases hi
  unique hi := by
    rw [h.outbox] at hi
    cases hi
  fence hi := by
    rw [h.outbox] at hi
    cases hi
  receipt hx := by
    rw [h.receipts] at hx
    cases hx
  owner hx := by
    rw [h.receipts] at hx
    cases hx
  mark hmark := by
    rw [Db.sentMark, h.events] at hmark
    cases hmark

/-- In every state that whole transactions reach, the tables are coupled. -/
theorem Reachable.coupled (h : Reachable Whole s) : s.db.Coupled :=
  Reachable.invariant (I := fun s => s.db.Coupled) h (fun _ hs => hs.coupled)
    fun _ _ _ ha hr hc hstep =>
      hc.dispatched (fun hr' => (hr.lawful.funds.rows.reservation hr').shape)
        (hstep.dispatches hr.lawful hc ha)

end Sys

end TigPool
