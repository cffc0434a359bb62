/-
# `TigPool.Responses` — what becomes of a response

`record_response` saves a response and reads it in one transaction.  An answer that cannot
be read is kept as evidence; one that names a precommit which contradicts what is on record
raises, and its row is rolled back with everything else.  `Recordable` says when the row
stays.  A history of the service notes which responses were handed in and which of them
were lost; the others are the rows that are stored.
-/
import TigPool.Service

namespace TigPool

open Basis

namespace Db

/-- The responses that are stored, each with its intent. -/
def stored (db : Db) : List (Uuid × Option Json) :=
  db.work.submissionResponses.entries.map fun e => (e.2.outboxId, some e.2.response)

theorem stored_insert {db db' : Db} {responseId : Uuid} {row : SubmissionResponse}
    (hfresh : responseId ∉ db.work.submissionResponses)
    (hrows : db'.work.submissionResponses
      = AList.insert responseId row db.work.submissionResponses) :
    db'.stored = (row.outboxId, some row.response) :: db.stored := by
  rw [stored, hrows, AList.entries_insert_of_notMem hfresh]
  rfl

/-- Requests and responses stay as they are. -/
structure Steady (db db' : Db) : Prop where
  requests : db'.work.workRequests = db.work.workRequests
  responses : db'.work.submissionResponses = db.work.submissionResponses

/-- The tables of uploads and of sampled nonces are as they were. -/
structure SameUploads (db db' : Db) : Prop where
  payloads : db'.work.benchmarkPayloads = db.work.benchmarkPayloads
  progress : db'.work.benchmarkProgress = db.work.benchmarkProgress

namespace SameUploads

variable {db db' db'' : Db}

theorem refl (db : Db) : db.SameUploads db := ⟨rfl, rfl⟩

theorem trans (h : db.SameUploads db') (h' : db'.SameUploads db'') : db.SameUploads db'' :=
  ⟨h'.payloads.trans h.payloads, h'.progress.trans h.progress⟩

end SameUploads

/-- Nothing that is asked for, answered or handed in changes. -/
structure Untouched (db db' : Db) : Prop extends Steady db db', SameUploads db db'

theorem Untouched.refl (db : Db) : db.Untouched db := ⟨⟨rfl, rfl⟩, ⟨rfl, rfl⟩⟩

/-- The outbox is none of it. -/
theorem Untouched.outbox {db db' : Db} {outbox : Table Uuid ProtocolIntent}
    (h : db.Untouched db') :
    db.Untouched { db' with work := { db'.work with protocolOutbox := outbox } } :=
  ⟨⟨h.requests, h.responses⟩, ⟨h.payloads, h.progress⟩⟩

end Db

namespace Submissions

variable {db db' : Db} {identity responseId : Uuid} {response : Wire} {limits : Wire → Bool}
  {row : Reservation} {intent : ProtocolIntent}

/-! ## One response -/

/-- The database once `record_response` has ended, normally or with an exception. -/
def afterResponse (db : Db) (identity : Uuid) (response : Wire) (responseId : Uuid)
    (limits : Wire → Bool) : Db :=
  match recordResponse db identity response responseId limits with
  | .ok (db', _) => db'
  | .error _ => db

/-- Does a row of its own hold the response, as a column holds such a value? -/
def Kept (db db' : Db) (identity : Uuid) (response : Wire) : Prop :=
  ∃ id row, id ∉ db.work.submissionResponses ∧
    db'.work.submissionResponses.lookup id = some row ∧ row.outboxId = identity ∧
    response.encoded = some row.response

/-- The benchmark is the one on record for the reservation; or none is, and it is not on
record for any other. -/
def Agrees (db : Db) (reservationId : Uuid) (benchmarkId : String) : Prop :=
  match db.work.precommitReceipts.lookup reservationId with
  | some existing => existing.benchmarkId = benchmarkId
  | none => db.funds.reservations.any (fun id r =>
        r.benchmarkId = some benchmarkId ∧ id ≠ reservationId) = false ∧
      db.work.precommitReceipts.any (fun _ r => r.benchmarkId = benchmarkId) = false

/-- Can the row of the response be kept? -/
def Recordable (db : Db) (intent : ProtocolIntent) (response : Wire) (responseId : Uuid)
    (limits : Wire → Bool) : Prop :=
  responseId ∉ db.work.submissionResponses ∧ (response.column limits).isSome ∧
    ∀ benchmarkId, readAnswer intent.kind response = .precommit benchmarkId →
      Agrees db intent.reservationId benchmarkId

/-- The response names another benchmark than the one on record. -/
def Contradicts (db : Db) (intent : ProtocolIntent) (response : Wire) : Prop :=
  ∃ existing benchmarkId, db.work.precommitReceipts.lookup intent.reservationId = some existing ∧
    readAnswer intent.kind response = .precommit benchmarkId ∧ existing.benchmarkId ≠ benchmarkId

/-- Every intent stays as it is, but the one that is answered may turn from uncertain to
accepted. -/
def Advances (db db' : Db) (identity : Uuid) : Prop :=
  ∀ id, db'.work.protocolOutbox.lookup id = db.work.protocolOutbox.lookup id ∨
    id = identity ∧ ∃ old new, db.work.protocolOutbox.lookup id = some old ∧
      db'.work.protocolOutbox.lookup id = some new ∧ old.state = .uncertain ∧
      new = { old with state := .accepted, evidence := new.evidence }

/-- `_receipt` refuses only what does not agree. -/
theorem receipt_ok_iff {reservationId : Uuid} {benchmarkId : String} {evidence : Json}
    (hid : isIdentity benchmarkId = true) :
    (∃ db', receipt db reservationId benchmarkId evidence = .ok db') ↔
      Agrees db reservationId benchmarkId := by
  simp only [receipt, Agrees, bind_eq_ok, require_eq_ok, exists_const, hid, true_and]
  cases db.work.precommitReceipts.lookup reservationId with
  | some existing =>
      simp only [bind_eq_ok, require_eq_ok, exists_const, pure_eq_ok]
      constructor
      · rintro ⟨_, h, -⟩
        exact h
      · intro h
        exact ⟨_, h, rfl⟩
  | none =>
      simp only [bind_eq_ok, require_eq_ok, exists_const, pure_eq_ok]
      constructor
      · rintro ⟨_, h, h', -⟩
        exact ⟨h, h'⟩
      · rintro ⟨h, h'⟩
        exact ⟨_, h, h', rfl⟩

theorem recordResponse_ok_iff (hlocked : locked db identity = .ok (row, intent))
    (hstate : intent.state = .uncertain ∨ intent.state = .accepted)
    (hobject : response.isObject = true) :
    (∃ out, recordResponse db identity response responseId limits = .ok out) ↔
      Recordable db intent response responseId limits := by
  -- How the intent is left does not decide whether the transaction ends normally.
  have hends {c : Prop} {hc : Decidable c} {kept left : Db × Bool} :
      ∃ out, (if c then pure kept else pure left : Result (Db × Bool)) = .ok out := by
    split
    · exact ⟨kept, rfl⟩
    · exact ⟨left, rfl⟩
  simp only [recordResponse, hlocked, hobject, hstate, bind_eq_ok, require_eq_ok, exists_const,
    true_and, Except.ok.injEq, exists_eq_left', fetch_eq_ok, Recordable]
  cases hcolumn : response.column limits with
  | none => simp
  | some stored =>
      simp only [Option.some.injEq, exists_eq_left', Option.isSome_some, true_and,
        exists_and_left]
      refine and_congr_right fun _ => ?_
      cases hanswer : readAnswer intent.kind response with
      | precommit benchmarkId =>
          simp only [bind_eq_ok, Answer.precommit.injEq, forall_eq']
          have hreceipt := @receipt_ok_iff (saveResponse db identity stored responseId)
            intent.reservationId benchmarkId (.obj [("response_id", .str responseId)])
            (readAnswer_precommit hanswer).2
          refine Iff.trans ⟨?_, ?_⟩ hreceipt
          · rintro ⟨-, db₁, h, -⟩
            exact ⟨db₁, h⟩
          · rintro ⟨db₁, h⟩
            exact hends.imp fun out hout => ⟨db₁, h, hout⟩
      | payload =>
          simp only [bind_eq_ok, reduceCtorEq, false_imp_iff, implies_true, iff_true]
          exact hends.imp fun out hout => ⟨_, rfl, hout⟩
      | unknown =>
          simp only [bind_eq_ok, reduceCtorEq, false_imp_iff, implies_true, iff_true]
          exact hends.imp fun out hout => ⟨_, rfl, hout⟩

/-- `_receipt` writes a receipt and nothing else. -/
theorem receipt_frame {reservationId : Uuid} {benchmarkId : String} {evidence : Json}
    (h : receipt db reservationId benchmarkId evidence = .ok db') :
    db.Untouched db' ∧ db'.work.protocolOutbox = db.work.protocolOutbox := by
  simp only [receipt, bind_eq_ok, require_eq_ok, exists_const] at h
  obtain ⟨-, h⟩ := h
  split at h
  next =>
    simp only [bind_eq_ok, require_eq_ok, exists_const, pure_eq_ok] at h
    obtain ⟨-, rfl⟩ := h
    exact ⟨⟨⟨rfl, rfl⟩, ⟨rfl, rfl⟩⟩, rfl⟩
  next =>
    simp only [bind_eq_ok, require_eq_ok, exists_const, pure_eq_ok] at h
    obtain ⟨-, -, rfl⟩ := h
    exact ⟨⟨⟨rfl, rfl⟩, ⟨rfl, rfl⟩⟩, rfl⟩

/-- A response that is recorded has its row, and only its intent may have moved. -/
theorem recordResponse_frame {out : Bool}
    (h : recordResponse db identity response responseId limits = .ok (db', out)) :
    (∃ stored, response.column limits = some stored ∧ db'.work.submissionResponses
        = AList.insert responseId ⟨identity, stored, db.clock⟩ db.work.submissionResponses) ∧
      Advances db db' identity := by
  obtain ⟨row, intent, stored, db₁, hlocked, -, hstored, hreceipt, hput⟩ := recordResponse_spec h
  have hsaved : db₁.work.submissionResponses
        = AList.insert responseId ⟨identity, stored, db.clock⟩ db.work.submissionResponses ∧
      db₁.work.protocolOutbox = db.work.protocolOutbox := by
    rcases hreceipt with ⟨benchmarkId, -, hreceipt⟩ | ⟨-, rfl⟩
    · exact ⟨(receipt_frame hreceipt).1.responses, (receipt_frame hreceipt).2⟩
    · exact ⟨rfl, rfl⟩
  obtain ⟨hrows, houtbox⟩ := hsaved
  rcases hput with ⟨-, rfl⟩ | ⟨hstate, -, rfl⟩
  · exact ⟨⟨stored, hstored, hrows⟩, fun id => .inl (by rw [houtbox])⟩
  · refine ⟨⟨stored, hstored, hrows⟩, fun id => ?_⟩
    have hold := (locked_spec hlocked).1
    by_cases hid : id = identity
    · subst hid
      exact .inr ⟨rfl, intent, _, hold, AList.lookup_insert _, hstate, rfl⟩
    · refine .inl ?_
      rw [← houtbox]
      exact AList.lookup_insert_ne hid

theorem afterResponse_cases :
    (∃ out, recordResponse db identity response responseId limits
        = .ok (afterResponse db identity response responseId limits, out)) ∨
      (∀ out, recordResponse db identity response responseId limits ≠ .ok out) ∧
        afterResponse db identity response responseId limits = db := by
  unfold afterResponse
  cases recordResponse db identity response responseId limits with
  | ok out => exact .inl ⟨out.2, rfl⟩
  | error e => exact .inr ⟨fun out => nofun, rfl⟩

theorem afterResponse_advances :
    Advances db (afterResponse db identity response responseId limits) identity := by
  rcases afterResponse_cases with ⟨out, h⟩ | ⟨-, h⟩
  · exact (recordResponse_frame h).2
  · rw [h]
    exact fun id => .inl rfl

/-- A response whose row cannot be kept changes nothing. -/
theorem afterResponse_eq (hlocked : locked db identity = .ok (row, intent))
    (hstate : intent.state = .uncertain ∨ intent.state = .accepted)
    (hobject : response.isObject = true)
    (hnot : ¬ Recordable db intent response responseId limits) :
    afterResponse db identity response responseId limits = db := by
  rcases afterResponse_cases with ⟨out, h⟩ | ⟨-, h⟩
  · exact absurd ((recordResponse_ok_iff hlocked hstate hobject).mp ⟨_, h⟩) hnot
  · exact h

theorem afterResponse_rows (hlocked : locked db identity = .ok (row, intent))
    (hstate : intent.state = .uncertain ∨ intent.state = .accepted)
    (hobject : response.isObject = true)
    (hrecordable : Recordable db intent response responseId limits) :
    ∃ stored, response.column limits = some stored ∧
      (afterResponse db identity response responseId limits).work.submissionResponses
        = AList.insert responseId ⟨identity, stored, db.clock⟩ db.work.submissionResponses := by
  rcases afterResponse_cases with ⟨out, h⟩ | ⟨h, -⟩
  · exact (recordResponse_frame h).1
  · obtain ⟨out, hout⟩ := (recordResponse_ok_iff hlocked hstate hobject).mpr hrecordable
    exact absurd hout (h out)

theorem kept_iff (hlocked : locked db identity = .ok (row, intent))
    (hstate : intent.state = .uncertain ∨ intent.state = .accepted)
    (hobject : response.isObject = true) :
    Kept db (afterResponse db identity response responseId limits) identity response ↔
      Recordable db intent response responseId limits := by
  constructor
  · rintro ⟨id, row, hfresh, hrow, -, -⟩
    by_contra hnot
    rw [afterResponse_eq hlocked hstate hobject hnot] at hrow
    exact hfresh (AList.lookup_isSome.mp (by rw [hrow]; rfl))
  · intro hrecordable
    obtain ⟨stored, hstored, hrows⟩ := afterResponse_rows hlocked hstate hobject hrecordable
    refine ⟨responseId, ⟨identity, stored, db.clock⟩, hrecordable.1, ?_, rfl, ?_⟩
    · rw [hrows]
      exact AList.lookup_insert _
    · exact Wire.encoded_of_column hstored

theorem Contradicts.not_recordable (h : Contradicts db intent response) :
    ¬ Recordable db intent response responseId limits := by
  obtain ⟨existing, benchmarkId, hexisting, hanswer, hne⟩ := h
  rintro ⟨-, -, hagrees⟩
  have hagrees := hagrees benchmarkId hanswer
  rw [Agrees, hexisting] at hagrees
  exact hne hagrees

end Submissions

/-! ## What other transactions leave -/

/-- Is it about work requests, or does it store a response? -/
def WorkAction.attends : WorkAction → Bool
  | .create | .refresh | .get | .hasQueued | .reserveNext _ | .recordResponse _ => true
  | _ => false

/-- Does it hand something in? -/
def WorkAction.handsIn : WorkAction → Bool
  | .results | .sampled | .proofs _ => true
  | _ => false

section

variable {db db' : Db} {identity : Uuid}

theorem Db.Moves.steady {L : Change → Prop} (h : db.Moves L db') : db.Steady db' where
  requests := h.requests
  responses := by
    have h := congrArg Work.submissionResponses h.work
    exact h

theorem Db.Moves.uploads {L : Change → Prop} (h : db.Moves L db') :
    db.SameUploads db' where
  payloads := by
    have h := congrArg Work.benchmarkPayloads h.work
    exact h
  progress := by
    have h := congrArg Work.benchmarkProgress h.work
    exact h

theorem Db.Moves.untouched {L : Change → Prop} (h : db.Moves L db') : db.Untouched db' :=
  ⟨h.steady, h.uploads⟩

theorem WorkRequests.enqueue_steady {reservationId : Uuid} {kind : IntentKind} {payload : Json}
    (h : enqueue db reservationId kind payload identity = .ok db') : db.Steady db' := by
  unfold enqueue at h
  split at h
  next =>
    simp only [bind_eq_ok, require_eq_ok, exists_const, pure_eq_ok] at h
    obtain ⟨-, rfl⟩ := h
    exact ⟨rfl, rfl⟩
  next =>
    simp only [bind_eq_ok, require_eq_ok, exists_const, pure_eq_ok] at h
    obtain ⟨-, rfl⟩ := h
    exact ⟨rfl, rfl⟩

theorem WorkRequests.reserveNext_responses (hf : db.funds.Lawful) {blockId : String}
    {choose : WorkRequest → Result (Option Selection)} {queue : List Uuid}
    {around : Surroundings} {pilot : WorkRequest → Result Unit} {fresh : FreshIds}
    {out : Option Uuid}
    (h : reserveNext db blockId choose queue around pilot fresh = .ok (db', out)) :
    db'.work.submissionResponses = db.work.submissionResponses := by
  rcases reserveNext_spec h with ⟨rfl, -⟩ | ⟨block, -, -, hqueue⟩
  · rfl
  rcases tryQueue_spec hqueue with ⟨rfl, -⟩ | ⟨requestId, -, reservation, -, hattempt⟩
  · rfl
  obtain ⟨request, selection, -, -, -, htry⟩ := attempt_spec hattempt
  obtain ⟨reserved, hreserve, hhand⟩ := tryReserve_spec htry
  simp only [handOver, bind_eq_ok, pure_eq_ok] at hhand
  obtain ⟨db₁, henqueue, rfl⟩ := hhand
  have hexpired : (expireQueued db).funds.Lawful := hf
  exact (enqueue_steady henqueue).responses.trans
    (reserve_moves hexpired hreserve).steady.responses

theorem MemberProtocol.store_steady {row : Reservation} {benchmarkId : String}
    {kind : IntentKind} {payload : Json} {intent : Uuid}
    (h : store db identity row benchmarkId kind payload intent = .ok db') : db.Steady db' := by
  simp only [store, bind_eq_ok, require_eq_ok, exists_const] at h
  obtain ⟨-, h⟩ := h
  split at h
  next =>
    simp only [bind_eq_ok, require_eq_ok, exists_const, pure_eq_ok] at h
    obtain ⟨-, rfl⟩ := h
    exact ⟨rfl, rfl⟩
  next =>
    simp only [bind_eq_ok, require_eq_ok, exists_const] at h
    have hqueued := WorkRequests.enqueue_steady h.2
    exact ⟨hqueued.requests, hqueued.responses⟩

/-- A transaction that is about none of it leaves it as it is: it writes intents, receipts and
what the functions below it do. -/
theorem WorkStep.untouched {a : WorkAction} (hf : db.funds.Lawful) (h : WorkStep db a db')
    (ha : a.attends = false) (hin : a.handsIn = false) : db.Untouched db' := by
  cases h with
  | create | refresh | get | hasQueued | reserveNext | recordResponse => cases ha
  | results | sampled | proofs => cases hin
  | setPause => exact ⟨⟨rfl, rfl⟩, ⟨rfl, rfl⟩⟩
  | setCap h =>
      rcases setCap_cases h with rfl | ⟨cap, -, -, rfl⟩
      · exact .refl _
      · exact ⟨⟨rfl, rfl⟩, ⟨rfl, rfl⟩⟩
  | recordBinary h =>
      simp only [Submissions.recordBinary, bind_eq_ok, require_eq_ok, exists_const] at h
      obtain ⟨row, -, -, h⟩ := h
      split at h <;> simp only [bind_eq_ok, require_eq_ok, exists_const, pure_eq_ok] at h <;>
        obtain ⟨-, rfl⟩ := h <;> exact ⟨⟨rfl, rfl⟩, ⟨rfl, rfl⟩⟩
  | begin h =>
      obtain ⟨row, intent, -, -, hcases⟩ := Submissions.begin_spec h
      rcases hcases with ⟨-, found, u, db₁, payload, -, -, hmark, rfl⟩ | ⟨-, -, -, -, rfl⟩
      · exact (markSubmitting_moves hmark).untouched.outbox
      · exact (Db.Untouched.refl _).outbox
  | cancelUnsent h =>
      simp only [Submissions.cancelUnsent, bind_eq_ok, require_eq_ok, exists_const] at h
      obtain ⟨-, ⟨row, intent⟩, -, h⟩ := h
      split at h
      next =>
        obtain rfl := Except.ok.inj h
        exact .refl _
      next =>
        simp only [bind_eq_ok, require_eq_ok, exists_const, pure_eq_ok] at h
        obtain ⟨-, ⟨db₁, out⟩, hrelease, rfl⟩ := h
        obtain ⟨m, hmoves, -⟩ := releaseUnstarted_moves hf hrelease
        exact hmoves.untouched.outbox
  | definitiveRejection h =>
      simp only [Submissions.definitiveRejection, bind_eq_ok, require_eq_ok, exists_const,
        pure_eq_ok] at h
      obtain ⟨-, ⟨row, intent⟩, -, -, -, ⟨db₁, out⟩, hrelease, rfl⟩ := h
      obtain ⟨m, hmoves, -⟩ := releaseUnstarted_moves hf hrelease
      exact hmoves.untouched.outbox
  | recoverPrecommit h =>
      obtain ⟨row, intent, preflight, -, -, -, -, ⟨-, rfl⟩ | ⟨_, db₁, -, -, -, hreceipt, rfl⟩⟩ :=
        Submissions.recoverPrecommit_spec h
      · exact .refl _
      · exact (Submissions.receipt_frame hreceipt).1.outbox
  | publishAssignment h => exact (Submissions.publishAssignment_moves hf h).untouched
  | confirmPayload h =>
      simp only [Submissions.confirmPayload, bind_eq_ok, require_eq_ok, exists_const,
        fetch_eq_ok] at h
      obtain ⟨-, row, -, ⟨intentId, intent⟩, -, -, h⟩ := h
      split at h <;> obtain rfl := Except.ok.inj h
      · exact (Db.Untouched.refl _).outbox
      · exact .refl _
  | retireUnsentPayload h =>
      simp only [Submissions.retireUnsentPayload, bind_eq_ok] at h
      obtain ⟨⟨row, intent⟩, -, h⟩ := h
      split at h <;> obtain ⟨rfl, -⟩ := Prod.mk.inj (Except.ok.inj h)
      · exact .refl _
      · exact (Db.Untouched.refl _).outbox
  | expireUnsentResults h =>
      simp only [Reconciliation.expireUnsentResults, bind_eq_ok] at h
      obtain ⟨row, -, h⟩ := h
      split at h
      next =>
        obtain ⟨rfl, -⟩ := Prod.mk.inj (Except.ok.inj h)
        exact .refl _
      next =>
        simp only [bind_eq_ok, pure_eq_ok, Prod.mk.injEq] at h
        obtain ⟨⟨db₁, id⟩, houtcome, rfl, -⟩ := h
        obtain ⟨outbox, heq⟩ := @Reconciliation.putIntents_frame db₁ _ _
        rw [heq]
        exact (recordOutcome_moves houtcome).untouched.outbox
  | expireRejectedResults h =>
      simp only [Reconciliation.expireRejectedResults, bind_eq_ok] at h
      obtain ⟨row, -, h⟩ := h
      split at h
      next =>
        obtain ⟨rfl, -⟩ := Prod.mk.inj (Except.ok.inj h)
        exact .refl _
      next intentId intent hintent =>
        split at h
        next =>
          obtain ⟨rfl, -⟩ := Prod.mk.inj (Except.ok.inj h)
          exact .refl _
        next =>
          simp only [bind_eq_ok, pure_eq_ok, Prod.mk.injEq] at h
          obtain ⟨⟨db₁, id⟩, houtcome, rfl, -⟩ := h
          exact (recordOutcome_moves houtcome).untouched.outbox

theorem WorkStep.steady {a : WorkAction} (hf : db.funds.Lawful) (h : WorkStep db a db')
    (ha : a.attends = false) : db.Steady db' := by
  cases hin : a.handsIn with
  | false => exact (h.untouched hf ha hin).toSteady
  | true =>
      cases h with
      | results h =>
          simp only [MemberProtocol.results, bind_eq_ok, require_eq_ok, exists_const] at h
          obtain ⟨-, -, ⟨identity, row⟩, -, -, hstore⟩ := h
          exact MemberProtocol.store_steady hstore
      | sampled h =>
          simp only [MemberProtocol.sampled, bind_eq_ok, require_eq_ok, exists_const] at h
          obtain ⟨-, ⟨identity, row⟩, -, -, h⟩ := h
          split at h
          next =>
            simp only [bind_eq_ok, require_eq_ok, exists_const, pure_eq_ok] at h
            obtain ⟨-, rfl⟩ := h
            exact ⟨rfl, rfl⟩
          next =>
            obtain rfl := Except.ok.inj h
            exact ⟨rfl, rfl⟩
      | proofs h =>
          simp only [MemberProtocol.proofs, bind_eq_ok, require_eq_ok, exists_const] at h
          obtain ⟨⟨identity, row⟩, -, progress, -, result, -, count, -, nonces, -, -, hstore⟩ := h
          exact MemberProtocol.store_steady hstore
      | _ => cases hin

theorem WorkStep.responses {a : WorkAction} (hf : db.funds.Lawful) (h : WorkStep db a db')
    (ha : ∀ i, a ≠ .recordResponse i) :
    db'.work.submissionResponses = db.work.submissionResponses := by
  cases hattends : a.attends with
  | false => exact (h.steady hf hattends).responses
  | true =>
      cases h with
      | create h =>
          obtain ⟨_, rfl⟩ := WorkRequests.create_asks h
          rfl
      | refresh h =>
          obtain ⟨_, rfl⟩ := WorkRequests.refresh_asks h
          rfl
      | get h =>
          obtain ⟨_, rfl⟩ := WorkRequests.get_asks h
          rfl
      | hasQueued => rfl
      | reserveNext _ h => exact WorkRequests.reserveNext_responses hf h
      | recordResponse => exact absurd rfl (ha _)
      | _ => cases hattends

end

namespace Sys

theorem Step.responses {s s' : Sys} {a : Action} (hs : s.Lawful) (h : Step s a s')
    (ha : ∀ i, a ≠ .work (.recordResponse i)) :
    s'.db.work.submissionResponses = s.db.work.submissionResponses := by
  cases h with
  | funds h => exact (h.moves hs.funds hs.held hs.created).steady.responses
  | report h =>
      obtain ⟨_, rfl⟩ := h.frame
      rfl
  | observe h =>
      obtain ⟨_, rfl⟩ := h.frame
      rfl
  | work h => exact h.responses hs.funds fun i heq => ha i (congrArg Action.work heq)
  | hold h => exact (HoldStep.moves h).steady.responses
  | tick => rfl

end Sys

/-! ## Histories -/

/-- What was handed in since a state, and what of it was lost.  Any transactions of the
service may stand between two responses. -/
inductive Answered (start : Sys) : Sys → List (Uuid × Wire) → List (Uuid × Wire) → Prop
  | start : Answered start start [] []
  | step {s s' : Sys} {a : Action} {delivered lost : List (Uuid × Wire)} :
      Answered start s delivered lost → Sys.Step s a s' →
      (∀ i, a ≠ .work (.recordResponse i)) → Answered start s' delivered lost
  | kept {s : Sys} {delivered lost : List (Uuid × Wire)} {identity responseId : Uuid}
      {response : Wire} {limits : Wire → Bool} {row : Reservation} {intent : ProtocolIntent} :
      Answered start s delivered lost → Submissions.locked s.db identity = .ok (row, intent) →
      intent.state = .uncertain ∨ intent.state = .accepted → response.isObject = true →
      Submissions.Recordable s.db intent response responseId limits →
      Answered start
        { s with db := Submissions.afterResponse s.db identity response responseId limits }
        ((identity, response) :: delivered) lost
  | lost {s : Sys} {delivered lost : List (Uuid × Wire)} {identity responseId : Uuid}
      {response : Wire} {limits : Wire → Bool} {row : Reservation} {intent : ProtocolIntent} :
      Answered start s delivered lost → Submissions.locked s.db identity = .ok (row, intent) →
      intent.state = .uncertain ∨ intent.state = .accepted → response.isObject = true →
      ¬ Submissions.Recordable s.db intent response responseId limits →
      Answered start
        { s with db := Submissions.afterResponse s.db identity response responseId limits }
        ((identity, response) :: delivered) ((identity, response) :: lost)

/-- What rows of these responses would hold, each with its intent. -/
def rowsFor (responses : List (Uuid × Wire)) : List (Uuid × Option Json) :=
  responses.map fun e => (e.1, e.2.encoded)

@[simp] theorem rowsFor_nil : rowsFor [] = [] := rfl

@[simp] theorem rowsFor_cons {identity : Uuid} {response : Wire} {rest : List (Uuid × Wire)} :
    rowsFor ((identity, response) :: rest) = (identity, response.encoded) :: rowsFor rest := rfl

namespace Answered

variable {start s : Sys} {delivered lost : List (Uuid × Wire)}

/-- A response that is handed in is a step of the service, or none. -/
theorem lawful (h : Answered start s delivered lost) (hs : start.Lawful) : s.Lawful := by
  induction h with
  | start => exact hs
  | step _ hstep _ ih => exact ih.step hstep
  | kept _ hlocked hstate hobject hrecordable ih =>
      rcases Submissions.afterResponse_cases with ⟨out, hok⟩ | ⟨-, heq⟩
      · exact ih.step (.work (.recordResponse hok))
      · rw [heq]
        exact ih
  | lost _ hlocked hstate hobject hnot ih =>
      rw [Submissions.afterResponse_eq hlocked hstate hobject hnot]
      exact ih

/-- Every response is stored or lost. -/
theorem stored (h : Answered start s delivered lost) (hs : start.Lawful) :
    (s.db.stored ++ rowsFor lost).Perm (rowsFor delivered ++ start.db.stored) := by
  induction h with
  | start => simp
  | step hbefore hstep ha ih =>
      have heq := hstep.responses (hbefore.lawful hs) ha
      rw [Db.stored, heq]
      exact ih
  | @kept s delivered lost identity responseId response limits row intent _ hlocked hstate
      hobject hrecordable ih =>
      obtain ⟨stored, hstored, hrows⟩ :=
        Submissions.afterResponse_rows hlocked hstate hobject hrecordable
      rw [Db.stored_insert hrecordable.1 hrows, rowsFor_cons, Wire.encoded_of_column hstored]
      exact ih.cons _
  | @lost s delivered lost identity responseId response limits row intent _ hlocked hstate
      hobject hnot ih =>
      rw [Submissions.afterResponse_eq hlocked hstate hobject hnot]
      exact (List.perm_middle.trans (ih.cons _))

end Answered

/-- In every state of a history, a response to a possible send is kept exactly when its row
can be; in every case only its intent may move, from uncertain to accepted, and a response
that contradicts the recorded benchmark changes nothing.  What is stored is what was handed
in exactly when nothing was lost. -/
theorem responses_kept {start s : Sys} {delivered lost : List (Uuid × Wire)}
    (hstart : Sys.Reachable Sys.Any start) (h : Answered start s delivered lost) :
    (∀ (identity responseId : Uuid) (response : Wire) (limits : Wire → Bool) (row : Reservation)
      (intent : ProtocolIntent), Submissions.locked s.db identity = .ok (row, intent) →
      intent.state = .uncertain ∨ intent.state = .accepted → response.isObject = true →
      (Submissions.Kept s.db
          (Submissions.afterResponse s.db identity response responseId limits) identity response ↔
        Submissions.Recordable s.db intent response responseId limits) ∧
        Submissions.Advances s.db
          (Submissions.afterResponse s.db identity response responseId limits) identity ∧
        (Submissions.Contradicts s.db intent response →
          Submissions.afterResponse s.db identity response responseId limits = s.db)) ∧
    (s.db.stored.Perm (rowsFor delivered ++ start.db.stored) ↔ lost = []) := by
  refine ⟨fun identity responseId response limits row intent hlocked hstate hobject =>
    ⟨Submissions.kept_iff hlocked hstate hobject, Submissions.afterResponse_advances,
      fun h => Submissions.afterResponse_eq hlocked hstate hobject h.not_recordable⟩, ?_⟩
  have hall := h.stored hstart.lawful
  constructor
  · intro hkept
    have hlength := hall.length_eq
    rw [List.length_append, hkept.length_eq] at hlength
    have hnone : (rowsFor lost).length = 0 := by omega
    simpa [rowsFor] using hnone
  · rintro rfl
    simpa using hall

namespace ResponseDay

def url : String := "https://example.invalid/algorithm"

def selection : WorkRequests.Selection :=
  { FirstDay.selection with
    evidence := .obj [("binary", .obj [("details", .obj [("download_url", .str url)])]),
      ("block_id", .str "block-0"), ("height", .int 0)] }

def preflight : Preflight where
  blockId := some (.str "block-0")
  height := some (.int 0)
  observedAt := 0
  seenBenchmarks := []

/-- A positive answer of TIG. -/
def answer (benchmarkId : String) : Wire :=
  .obj [(Wire.codePoints "status", .int 200), (Wire.codePoints "body",
    .obj [(Wire.codePoints "benchmark_id", .str (Wire.codePoints benchmarkId))])]

def first : Wire := answer "aaaaaaaaaaaaaaaaaaaaaaaaaaaaaaaa"
def second : Wire := answer "bbbbbbbbbbbbbbbbbbbbbbbbbbbbbbbb"

/-- Every value is within the limits. -/
def unlimited (_ : Wire) : Bool := true

/-- The work of one member is sent. -/
def run : Result Db := do
  let db ← FirstDay.queued
  let (db, _) ← WorkRequests.reserveNext db "block-0" (fun _ => .ok (some selection)) ["request"]
    FirstDay.around (fun _ => .ok ()) ⟨"benchmark", "intent"⟩
  let db ← Submissions.recordBinary db "benchmark" url "digest"
  let (db, _) ← Submissions.begin db "intent" (some preflight) FirstDay.around
  return db

def sent : Sys where
  db := run.toOption.getD migrated
  held := Held.empty

/-- The first answer is recorded. -/
def answered : Sys :=
  { sent with db := Submissions.afterResponse sent.db "intent" first "response-1" unlimited }

/-- The work is sent by the last step. -/
theorem sending {allowed : Sys → Action → Prop}
    (hallowed : ∀ s a, Sys.Serves s a → (∀ i, a ≠ .work (.begin i)) → allowed s a) :
    ∃ s, Sys.Reachable allowed s ∧ Sys.Step s (.work (.begin "intent")) sent := by
  have hrun : run = .ok sent.db := eq_ok_getD (by decide +kernel)
  simp only [run, bind_eq_ok, pure_eq_ok] at hrun
  obtain ⟨db₇, hwaiting, ⟨db₈, _⟩, h₈, db₉, h₉, ⟨db₁₀, _⟩, h₁₀, hend⟩ := hrun
  have hchoice : WorkRequests.Chooses db₇ "block-0" fun _ => .ok (some selection) := by
    rintro request _ ⟨⟩
    exact ⟨fun b hb => (FirstDay.queued_round hwaiting hb).symm, rfl, _, _, _, _, _, rfl⟩
  simp only [FirstDay.queued, bind_eq_ok, pure_eq_ok] at hwaiting
  obtain ⟨db₁, h₁, ⟨db₂, _⟩, h₂, db₃, h₃, ⟨db₄, _⟩, h₄, db₅, h₅, db₆, h₆, ⟨_, _⟩, h₇, rfl⟩ :=
    hwaiting
  have hfunds (s : Sys) {a : FundsAction} (ha : Sys.FundsPart a = false) (hne : a ≠ .correct) :
      allowed s (.funds a) :=
    hallowed _ _ ⟨fun _ heq => by cases heq; exact ha, fun heq => hne (Action.funds.inj heq)⟩
      fun i heq => by cases heq
  have hobserve (s : Sys) {a : ObservationAction} : allowed s (.observe a) :=
    hallowed _ _ ⟨fun _ heq => (by cases heq), fun heq => (by cases heq)⟩ fun i heq => by cases heq
  have hwork (s : Sys) {a : WorkAction} (ha : ∀ i, a ≠ .begin i) : allowed s (.work a) :=
    hallowed _ _ Sys.serves_work fun i heq => ha i (Action.work.inj heq)
  have hopened : Sys.Reachable allowed ⟨db₁, Held.empty⟩ :=
    ⟨_, Sys.initial_migrated, .one (hfunds _ rfl (by simp)) (.funds (.initializeAccounts h₁))⟩
  have hcapped := (hopened.step (hfunds _ rfl (by simp)) (.funds (.registerVerified h₂))).step
    (hwork _ (by simp)) (.work (.setCap h₃))
  have hwatching := (hcapped.step (hfunds _ rfl (by simp)) (.funds (.receive h₄))).step (hobserve _)
    (.observe (.initializeStore h₅))
  have hqueued := (hwatching.step (hobserve _) (.observe (.record h₆))).step (hwork _ (by simp))
    (.work (.create h₇))
  have hworking := (hqueued.step (hwork _ (by simp)) (.work (.reserveNext hchoice h₈))).step
    (hwork _ (by simp)) (.work (.recordBinary h₉))
  refine ⟨_, hworking, ?_⟩
  rw [show sent = ⟨db₁₀, Held.empty⟩ from congrArg (Sys.mk · Held.empty) hend.symm]
  exact .work (.begin h₁₀)

theorem reachable : Sys.Reachable Sys.Any sent := by
  obtain ⟨s, hs, hbegin⟩ := @sending Sys.Any fun _ _ _ _ => trivial
  exact hs.step trivial hbegin

/-- The intent is `state`, and its response can be kept or not. -/
theorem locked_of {db : Db} {state : IntentState}
    (h : (Submissions.locked db "intent").toOption.map (·.2.state) = some state) :
    ∃ row intent, Submissions.locked db "intent" = .ok (row, intent) ∧ intent.state = state := by
  obtain ⟨⟨row, intent⟩, hout, hstate⟩ := Option.map_eq_some_iff.mp h
  exact ⟨row, intent, eq_ok_of_toOption hout, hstate⟩

theorem first_recorded :
    ∃ out, Submissions.recordResponse sent.db "intent" first "response-1" unlimited
      = .ok (answered.db, out) := by
  rcases @Submissions.afterResponse_cases sent.db "intent" "response-1" first unlimited
    with h | ⟨h, -⟩
  · exact h
  · have hok : (Submissions.recordResponse sent.db "intent" first "response-1"
        unlimited).toOption.isSome = true := by decide +kernel
    obtain ⟨out, hout⟩ := Option.isSome_iff_exists.mp hok
    exact absurd (eq_ok_of_toOption hout) (h out)

/-- The first answer is kept, and is all that is stored. -/
theorem first_answer_kept :
    Submissions.Kept sent.db answered.db "intent" first ∧
      answered.db.stored.Perm [("intent", first.encoded)] := by
  obtain ⟨row, intent, hlocked, hstate⟩ := @locked_of sent.db .uncertain (by decide +kernel)
  obtain ⟨out, hout⟩ := first_recorded
  have hrecordable : Submissions.Recordable sent.db intent first "response-1" unlimited :=
    (Submissions.recordResponse_ok_iff hlocked (.inl hstate) rfl).mp ⟨_, hout⟩
  have hkept := ((responses_kept reachable .start).1 "intent" "response-1" first unlimited row
    intent hlocked (.inl hstate) rfl).1.mpr hrecordable
  have hempty : sent.db.stored = [] := by decide +kernel
  have hanswered : Answered sent answered [("intent", first)] [] :=
    .kept .start hlocked (.inl hstate) rfl hrecordable
  have hall := (responses_kept reachable hanswered).2.mpr rfl
  rw [hempty] at hall
  exact ⟨hkept, hall⟩

/-- A second answer with another benchmark leaves no row. -/
theorem second_answer_lost : Sys.Reachable Sys.Any answered ∧ second.isObject = true ∧
    (∃ row intent, Submissions.locked answered.db "intent" = .ok (row, intent) ∧
      intent.state = .accepted) ∧
    ¬ ∃ id row, (Submissions.afterResponse answered.db "intent" second "response-2"
        unlimited).work.submissionResponses.lookup id = some row ∧
      second.encoded = some row.response := by
  refine ⟨?_, rfl, locked_of (by decide +kernel), ?_⟩
  · obtain ⟨out, hout⟩ := first_recorded
    exact reachable.step trivial (.work (.recordResponse hout))
  · rintro ⟨id, row, hrow, hresponse⟩
    have hstored : (Submissions.afterResponse answered.db "intent" second "response-2"
        unlimited).stored = [("intent", first.encoded)] := by decide +kernel
    have hmem : (row.outboxId, some row.response) ∈
        (Submissions.afterResponse answered.db "intent" second "response-2" unlimited).stored :=
      List.mem_map.mpr ⟨⟨id, row⟩, Table.mem_entries_iff.mpr hrow, rfl⟩
    rw [hstored, List.mem_singleton, ← hresponse] at hmem
    have hne : second.encoded ≠ first.encoded := by decide +kernel
    exact hne (Prod.mk.inj hmem).2

end ResponseDay

end TigPool
