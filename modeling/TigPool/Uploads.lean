/-
# `TigPool.Uploads` — what members hand in

Results and proofs are stored when they are handed in, and queued for TIG in the same
transaction.  `Db.Filed` says how the table of uploads and the outbox stand to each other: for
each upload there is one intent, which carries it, and there are no intents of results or
proofs besides these.  Only a transaction in which a member hands something in writes uploads,
and only one in which the member acknowledges the assignment hands work over.
-/
import TigPool.Basis.Traversal
import TigPool.MerkleProofs
import TigPool.SingleSend
import TigPool.WorkQueue
import TigPool.Ownership
import TigPool.SettledCredit

namespace TigPool

open Basis

/-! ## Who hands over -/

namespace Funds

/-- Work that is handed over was so before. -/
def HandsNothing (f f' : Funds) : Prop :=
  ∀ ⦃id r'⦄, f'.reservations.lookup id = some r' → r'.handedOverAt.isSome →
    ∃ r, f.reservations.lookup id = some r ∧ r.handedOverAt.isSome

namespace HandsNothing

variable {f f' f'' : Funds}

theorem of_eq (h : f'.reservations = f.reservations) : HandsNothing f f' := fun _ r' hr' hsome =>
  ⟨r', by rw [← h]; exact hr', hsome⟩

theorem trans (h : HandsNothing f f') (h' : HandsNothing f' f'') : HandsNothing f f'' := by
  intro id r'' hr'' hsome
  obtain ⟨r', hr', hsome'⟩ := h' hr'' hsome
  exact h hr' hsome'

/-- One reservation is written, and is not handed over by that. -/
theorem put {id : Uuid} {r' : Reservation} (hput : f'.reservations = AList.insert id r' f.reservations)
    (h : r'.handedOverAt.isSome → ∃ r, f.reservations.lookup id = some r ∧ r.handedOverAt.isSome) :
    HandsNothing f f' := by
  intro k x hx hsome
  rw [hput] at hx
  rcases Table.lookup_insert_cases hx with ⟨rfl, rfl⟩ | ⟨-, hx⟩
  · exact h hsome
  · exact ⟨x, hx, hsome⟩

end HandsNothing

variable {f f' : Funds} {c : Change} {L : Change → Prop}

theorem Step.handsNothing (h : Step f c f') (hc : ∀ id, c ≠ .progressed id) :
    HandsNothing f f' := by
  cases h with
  | reserved _ hfresh =>
      refine .put rfl fun hsome => ?_
      rw [hfresh.handedOverAt] at hsome
      cases hsome
  | progressed => exact absurd rfl (hc _)
  | accepted hr => exact .put rfl fun hsome => ⟨_, hr, hsome⟩
  | unstarted hr => exact .put rfl fun hsome => ⟨_, hr, hsome⟩
  | unhanded hr => exact .put rfl fun hsome => ⟨_, hr, hsome⟩
  | finalized hr => exact .put rfl fun hsome => ⟨_, hr, hsome⟩
  | _ => exact .of_eq rfl

theorem Path.handsNothing (h : Path L f f') (hL : ∀ id, ¬ L (.progressed id)) :
    HandsNothing f f' := by
  induction h with
  | refl => exact .of_eq rfl
  | step _ hc hs ih =>
      refine ih.trans (hs.handsNothing ?_)
      rintro id rfl
      exact hL id hc

end Funds

theorem recordOutcome_handsNothing {db db' : Db} {identity out : Uuid}
    {outcome : DefinitiveOutcome} {height : ℤ} {evidence : Json}
    (h : recordOutcome db identity outcome height evidence = .ok (db', out)) :
    db.funds.HandsNothing db'.funds := by
  obtain ⟨row, hrow, ⟨rfl, -⟩ | ⟨events, height, -, -, rfl⟩⟩ := recordOutcome_spec h
  · exact .of_eq rfl
  · exact .put rfl fun hsome => ⟨row, hrow, hsome⟩

theorem Submissions.begin_handsNothing {db db' : Db} {identity : Uuid}
    {preflight : Option Preflight} {around : Surroundings} {out : ProtocolIntent}
    (h : begin db identity preflight around = .ok (db', out)) :
    db.funds.HandsNothing db'.funds := by
  obtain ⟨row, intent, -, -, hcases⟩ := begin_spec h
  rcases hcases with ⟨-, found, u, db₁, payload, -, -, hmark, rfl⟩ | ⟨-, -, -, -, rfl⟩
  · obtain ⟨r, _, events, hr, -, -, -, -, -, rfl⟩ := markSubmitting_spec hmark
    exact .put rfl fun hsome => ⟨r, hr, hsome⟩
  · exact .of_eq rfl

namespace Reconciliation

/-- The transactions that record outcomes. -/
def ends : Action → Bool
  | .funds (.recordOutcome _) | .work (.expireUnsentResults _)
  | .work (.expireRejectedResults _) => true
  | _ => false

/-- The transactions that only a reconciler makes. -/
def reconciles (a : Action) : Bool :=
  ends a || match a with
    | .work .confirmPayload | .work .sampled => true
    | _ => false

variable {db db' : Db} {reservationId : Uuid} {height : ℤ} {lifetime : Json}
  {receipt : Uuid × Json} {origin : String} {out : Bool}

theorem expireUnsentResults_handsNothing
    (h : expireUnsentResults db reservationId height lifetime = .ok (db', out)) :
    db.funds.HandsNothing db'.funds := by
  simp only [expireUnsentResults, bind_eq_ok] at h
  obtain ⟨row, -, h⟩ := h
  split at h
  next =>
    obtain ⟨rfl, -⟩ := Prod.mk.inj (Except.ok.inj h)
    exact .of_eq rfl
  next =>
    simp only [bind_eq_ok, pure_eq_ok, Prod.mk.injEq] at h
    obtain ⟨⟨db₁, id⟩, houtcome, rfl, -⟩ := h
    obtain ⟨outbox, heq⟩ := @putIntents_frame db₁ _ _
    rw [heq]
    have hkept := recordOutcome_handsNothing houtcome
    exact hkept

theorem expireRejectedResults_handsNothing
    (h : expireRejectedResults db reservationId height lifetime receipt origin = .ok (db', out)) :
    db.funds.HandsNothing db'.funds := by
  simp only [expireRejectedResults, bind_eq_ok] at h
  obtain ⟨row, -, h⟩ := h
  split at h
  next =>
    obtain ⟨rfl, -⟩ := Prod.mk.inj (Except.ok.inj h)
    exact .of_eq rfl
  next =>
    split at h
    next =>
      obtain ⟨rfl, -⟩ := Prod.mk.inj (Except.ok.inj h)
      exact .of_eq rfl
    next =>
      simp only [bind_eq_ok, pure_eq_ok, Prod.mk.injEq] at h
      obtain ⟨⟨db₁, id⟩, houtcome, rfl, -⟩ := h
      have hkept := recordOutcome_handsNothing houtcome
      exact hkept

end Reconciliation

namespace Sys

variable {s s' : Sys} {a : Action}

/-- Only an acknowledgement hands work over. -/
theorem Step.handsNothing (hs : s.Lawful) (ha : Whole s a)
    (hne : ∀ id, a ≠ .funds (.acknowledge id)) (h : Step s a s') :
    s.db.funds.HandsNothing s'.db.funds := by
  have hpath (hquiet : ∀ id, ¬ a.does s.db (.progressed id)) : s.db.funds.HandsNothing s'.db.funds :=
    Funds.Path.handsNothing (h.path hs) hquiet
  cases h with
  | funds h =>
      cases h with
      | markSubmitting => exact absurd (ha _ rfl) (by simp [FundsPart])
      | acknowledge => exact absurd rfl (hne _)
      | recordOutcome h => exact recordOutcome_handsNothing h
      | _ => exact hpath (by simp [Action.does, FundsAction.does, Change.Quiet])
  | work h =>
      cases h with
      | begin h => exact Submissions.begin_handsNothing h
      | expireUnsentResults h => exact Reconciliation.expireUnsentResults_handsNothing h
      | expireRejectedResults h => exact Reconciliation.expireRejectedResults_handsNothing h
      | _ => exact hpath (by simp [Action.does, WorkAction.does, Change.Quiet])
  | _ => exact hpath (by simp [Action.does, Change.Quiet])

/-- An acknowledgement hands over one reservation, which is the member's, and its assignment is
the one that the member names. -/
theorem acknowledge_handsOver {db db' : Db} {identity member out : Uuid} {digest : Json}
    (h : acknowledge db identity member digest = .ok (db', out)) {id : Uuid} {r' : Reservation}
    (hr' : db'.funds.reservations.lookup id = some r') (hsome : r'.handedOverAt.isSome) :
    (∃ r, db.funds.reservations.lookup id = some r ∧ r.handedOverAt.isSome) ∨
      id = identity ∧ r'.memberId = member ∧ r'.assignmentDigest = some digest := by
  have hchecks : ∀ row, db.funds.reservations.lookup identity = some row →
      row.memberId = member ∧ row.assignmentDigest = some digest := by
    intro row hrow
    simp only [acknowledge, lockedReservation, bind_eq_ok, require_eq_ok, exists_const,
      fetch_eq_ok] at h
    obtain ⟨row', hrow', hchecks, -⟩ := h
    obtain rfl := Option.some.inj (hrow.symm.trans hrow')
    exact hchecks
  obtain ⟨row, hrow, rfl | ⟨events, -, -, rfl⟩⟩ := acknowledge_spec h
  · exact .inl ⟨r', hr', hsome⟩
  · rcases Table.lookup_insert_cases hr' with ⟨rfl, rfl⟩ | ⟨-, hr'⟩
    · exact .inr ⟨rfl, hchecks row hrow⟩
    · exact .inl ⟨r', hr', hsome⟩

end Sys

/-! ## Who uploads -/

theorem WorkRequests.enqueue_uploads {db db' : Db} {reservationId identity : Uuid}
    {kind : IntentKind} {payload : Json}
    (h : enqueue db reservationId kind payload identity = .ok db') : db.SameUploads db' := by
  rcases enqueue_cases h with ⟨rfl, -⟩ | ⟨-, -, rfl⟩
  · exact .refl _
  · exact ⟨rfl, rfl⟩

theorem WorkRequests.reserveNext_uploads {db db' : Db} (hf : db.funds.Lawful) {blockId : String}
    {choose : WorkRequest → Result (Option Selection)} {queue : List Uuid}
    {around : Surroundings} {pilot : WorkRequest → Result Unit} {fresh : FreshIds}
    {out : Option Uuid}
    (h : reserveNext db blockId choose queue around pilot fresh = .ok (db', out)) :
    db.SameUploads db' := by
  have hexpired : (expireQueued db).funds.Lawful := hf
  rcases reserveNext_spec h with ⟨rfl, -⟩ | ⟨block, -, -, hqueue⟩
  · exact ⟨rfl, rfl⟩
  rcases tryQueue_spec hqueue with ⟨rfl, -⟩ | ⟨requestId, -, reservation, -, hattempt⟩
  · exact ⟨rfl, rfl⟩
  obtain ⟨request, selection, -, -, -, htry⟩ := attempt_spec hattempt
  obtain ⟨reserved, hreserve, hhand⟩ := tryReserve_spec htry
  simp only [handOver, bind_eq_ok, pure_eq_ok] at hhand
  obtain ⟨db₁, henqueue, rfl⟩ := hhand
  have hkept := (reserve_moves hexpired hreserve).uploads.trans (enqueue_uploads henqueue)
  exact ⟨hkept.payloads, hkept.progress⟩

theorem WorkStep.uploads {db db' : Db} {a : WorkAction} (hf : db.funds.Lawful)
    (h : WorkStep db a db') (ha : a.handsIn = false) : db.SameUploads db' := by
  cases hattends : a.attends with
  | false => exact (h.untouched hf hattends ha).toSameUploads
  | true =>
      cases h with
      | create h =>
          obtain ⟨_, rfl⟩ := WorkRequests.create_asks h
          exact ⟨rfl, rfl⟩
      | refresh h =>
          obtain ⟨_, rfl⟩ := WorkRequests.refresh_asks h
          exact ⟨rfl, rfl⟩
      | get h =>
          obtain ⟨_, rfl⟩ := WorkRequests.get_asks h
          exact ⟨rfl, rfl⟩
      | hasQueued => exact ⟨rfl, rfl⟩
      | reserveNext _ h => exact WorkRequests.reserveNext_uploads hf h
      | recordResponse h =>
          obtain ⟨row, intent, stored, db₁, -, -, -, hreceipt, hput⟩ :=
            Submissions.recordResponse_spec h
          have hsaved : db.SameUploads db₁ := by
            rcases hreceipt with ⟨benchmarkId, -, hreceipt⟩ | ⟨-, rfl⟩
            · have hreceived := (Submissions.receipt_frame hreceipt).1
              exact ⟨hreceived.payloads, hreceived.progress⟩
            · exact ⟨rfl, rfl⟩
          rcases hput with ⟨-, rfl⟩ | ⟨-, -, rfl⟩
          · exact hsaved
          · exact ⟨hsaved.payloads, hsaved.progress⟩
      | _ => cases hattends

/-- Only who hands something in writes uploads and sampled nonces. -/
theorem Sys.Step.uploads {s s' : Sys} {a : Action} (hs : s.Lawful) (h : Step s a s')
    (ha : ∀ w, a = .work w → w.handsIn = false) : s.db.SameUploads s'.db := by
  cases h with
  | funds h => exact (h.moves hs.funds hs.held hs.created).uploads
  | report h =>
      obtain ⟨_, rfl⟩ := h.frame
      exact ⟨rfl, rfl⟩
  | observe h =>
      obtain ⟨_, rfl⟩ := h.frame
      exact ⟨rfl, rfl⟩
  | work h => exact h.uploads hs.funds (ha _ rfl)
  | hold h => exact (HoldStep.moves h).uploads
  | tick => exact ⟨rfl, rfl⟩

/-! ## Who queues uploads -/

namespace Db

/-- Intents of results and proofs are old. -/
def QueuesNothing (db db' : Db) : Prop :=
  ∀ ⦃k i'⦄, db'.work.protocolOutbox.lookup k = some i' → i'.kind ≠ .precommit →
    ∃ i, db.work.protocolOutbox.lookup k = some i

namespace QueuesNothing

variable {db db' : Db}

theorem of_eq (h : db'.work.protocolOutbox = db.work.protocolOutbox) : db.QueuesNothing db' :=
  fun _ i' hi' _ => ⟨i', by rw [← h]; exact hi'⟩

/-- An intent is written that is on record, or is a precommit. -/
theorem put {k : Uuid} {i' : ProtocolIntent}
    (hput : db'.work.protocolOutbox = AList.insert k i' db.work.protocolOutbox)
    (h : i'.kind = .precommit ∨ ∃ i, db.work.protocolOutbox.lookup k = some i) :
    db.QueuesNothing db' := by
  intro k' x hx hkind
  rw [hput] at hx
  rcases Table.lookup_insert_cases hx with ⟨rfl, rfl⟩ | ⟨-, hx⟩
  · exact h.resolve_left hkind
  · exact ⟨x, hx⟩

theorem of_rests (h : db.Rests db') : db.QueuesNothing db' := by
  intro k i' hi' _
  obtain ⟨i, hi, -⟩ := (h.outbox k).back (R := fun _ _ => True) trivial (fun _ _ => trivial) hi'
  exact ⟨i, hi⟩

end QueuesNothing

end Db

theorem WorkRequests.reserveNext_queuesNothing {db db' : Db} (hf : db.funds.Lawful)
    {blockId : String} {choose : WorkRequest → Result (Option Selection)} {queue : List Uuid}
    {around : Surroundings} {pilot : WorkRequest → Result Unit} {fresh : FreshIds}
    {out : Option Uuid}
    (h : reserveNext db blockId choose queue around pilot fresh = .ok (db', out)) :
    db.QueuesNothing db' := by
  have hexpired : (expireQueued db).funds.Lawful := hf
  rcases reserveNext_spec h with ⟨rfl, -⟩ | ⟨block, -, -, hqueue⟩
  · exact .of_eq rfl
  rcases tryQueue_spec hqueue with ⟨rfl, -⟩ | ⟨requestId, -, reservation, -, hattempt⟩
  · exact .of_eq rfl
  obtain ⟨request, selection, -, -, -, htry⟩ := attempt_spec hattempt
  obtain ⟨reserved, hreserve, hhand⟩ := tryReserve_spec htry
  simp only [handOver, bind_eq_ok, pure_eq_ok] at hhand
  obtain ⟨db₁, henqueue, rfl⟩ := hhand
  have hsame : reserved.work.protocolOutbox = db.work.protocolOutbox :=
    (reserve_moves hexpired hreserve).outbox
  rcases enqueue_cases henqueue with ⟨rfl, -⟩ | ⟨-, -, rfl⟩
  · exact .of_eq hsame
  · exact .put (congrArg (AList.insert _ _) hsame) (.inl rfl)

theorem WorkStep.queuesNothing {db db' : Db} {a : WorkAction} (hf : db.funds.Lawful)
    (h : WorkStep db a db') (ha : a.handsIn = false) : db.QueuesNothing db' := by
  cases h with
  | results | sampled | proofs => cases ha
  | create h =>
      obtain ⟨_, rfl⟩ := WorkRequests.create_asks h
      exact .of_eq rfl
  | refresh h =>
      obtain ⟨_, rfl⟩ := WorkRequests.refresh_asks h
      exact .of_eq rfl
  | get h =>
      obtain ⟨_, rfl⟩ := WorkRequests.get_asks h
      exact .of_eq rfl
  | hasQueued => exact .of_eq rfl
  | setPause => exact .of_eq rfl
  | setCap h => rcases setCap_cases h with rfl | ⟨cap, -, -, rfl⟩ <;> exact .of_eq rfl
  | reserveNext _ h => exact WorkRequests.reserveNext_queuesNothing hf h
  | recordBinary h => exact .of_rests (Submissions.recordBinary_rests h)
  | begin h =>
      obtain ⟨row, intent, hlocked, -, hcases⟩ := Submissions.begin_spec h
      obtain ⟨hi, -⟩ := Submissions.locked_spec hlocked
      rcases hcases with ⟨hkind, found, u, db₁, payload, -, -, hmark, rfl⟩ | ⟨-, -, -, -, rfl⟩
      · exact .put (congrArg (AList.insert _ _) (markSubmitting_moves hmark).outbox) (.inl hkind)
      · exact .put rfl (.inr ⟨intent, hi⟩)
  | cancelUnsent h =>
      simp only [Submissions.cancelUnsent, bind_eq_ok, require_eq_ok, exists_const] at h
      obtain ⟨-, ⟨row, intent⟩, -, h⟩ := h
      split at h
      next =>
        obtain rfl := Except.ok.inj h
        exact .of_eq rfl
      next =>
        simp only [bind_eq_ok, require_eq_ok, exists_const, pure_eq_ok] at h
        obtain ⟨⟨-, hkind⟩, ⟨db₁, out⟩, hrelease, rfl⟩ := h
        obtain ⟨m, hmoves, -⟩ := releaseUnstarted_moves hf hrelease
        exact .put (congrArg (AList.insert _ _) hmoves.outbox) (.inl hkind)
  | recordResponse h =>
      obtain ⟨row, intent, stored, db₁, hlocked, -, -, hreceipt, hput⟩
        := Submissions.recordResponse_spec h
      obtain ⟨hi, -⟩ := Submissions.locked_spec hlocked
      have hsaved : db₁.work.protocolOutbox = db.work.protocolOutbox := by
        rcases hreceipt with ⟨benchmarkId, -, hreceipt⟩ | ⟨-, rfl⟩
        · exact (Submissions.receipt_frame hreceipt).2
        · rfl
      rcases hput with ⟨-, rfl⟩ | ⟨-, -, rfl⟩
      · exact .of_eq hsaved
      · exact .put (congrArg (AList.insert _ _) hsaved) (.inr ⟨intent, hi⟩)
  | definitiveRejection h =>
      simp only [Submissions.definitiveRejection, bind_eq_ok, require_eq_ok, exists_const,
        pure_eq_ok] at h
      obtain ⟨-, ⟨row, intent⟩, -, ⟨hkind, -⟩, -, ⟨db₁, out⟩, hrelease, rfl⟩ := h
      obtain ⟨m, hmoves, -⟩ := releaseUnstarted_moves hf hrelease
      exact .put (congrArg (AList.insert _ _) hmoves.outbox) (.inl hkind)
  | recoverPrecommit h =>
      obtain ⟨row, intent, preflight, -, hkind, -, -, ⟨-, rfl⟩ |
        ⟨_, db₁, -, -, -, hreceipt, rfl⟩⟩ := Submissions.recoverPrecommit_spec h
      · exact .of_eq rfl
      · exact .put (congrArg (AList.insert _ _) (Submissions.receipt_frame hreceipt).2)
          (.inl hkind)
  | publishAssignment h => exact .of_eq (Submissions.publishAssignment_moves hf h).outbox
  | confirmPayload h => exact .of_rests (Submissions.confirmPayload_rests h)
  | retireUnsentPayload h => exact .of_rests (Submissions.retireUnsentPayload_rests h)
  | expireUnsentResults h => exact .of_rests (Reconciliation.expireUnsentResults_rests hf h)
  | expireRejectedResults h => exact .of_rests (Reconciliation.expireRejectedResults_rests hf h)

theorem Sys.Step.queuesNothing {s s' : Sys} {a : Action} (hs : s.Lawful) (h : Step s a s')
    (ha : ∀ w, a = .work w → w.handsIn = false) : s.db.QueuesNothing s'.db := by
  cases h with
  | funds h => exact .of_eq (h.moves hs.funds hs.held hs.created).outbox
  | report h =>
      obtain ⟨_, rfl⟩ := h.frame
      exact .of_eq rfl
  | observe h =>
      obtain ⟨_, rfl⟩ := h.frame
      exact .of_eq rfl
  | work h => exact h.queuesNothing hs.funds (ha _ rfl)
  | hold h => exact .of_eq (HoldStep.moves h).outbox
  | tick => exact .of_eq rfl

/-! ## The assignment stays -/

/-- What TIG has accepted keeps its assignment. -/
def Reservation.Assigned (r r' : Reservation) : Prop :=
  r.benchmarkId.isSome → r'.benchmarkId = r.benchmarkId ∧ r'.assignment = r.assignment ∧
    r'.assignmentDigest = r.assignmentDigest

namespace Reservation.Assigned

variable {r r' r'' : Reservation}

theorem refl (r : Reservation) : r.Assigned r := fun _ => ⟨rfl, rfl, rfl⟩

theorem trans (h : r.Assigned r') (h' : r'.Assigned r'') : r.Assigned r'' := by
  intro hsome
  obtain ⟨hid, hassignment, hdigest⟩ := h hsome
  obtain ⟨hid', hassignment', hdigest'⟩ := h' (by rw [hid]; exact hsome)
  exact ⟨hid'.trans hid, hassignment'.trans hassignment, hdigest'.trans hdigest⟩

theorem of_turns (hr : r.Shape) (h : r.Turns r') : r.Assigned r' := by
  intro hsome
  cases h with
  | progressed hp => cases hp <;> exact ⟨rfl, rfl, rfl⟩
  | accepted hun =>
      rw [hr.unnamed (.inr (.inl hun))] at hsome
      cases hsome
  | _ => exact ⟨rfl, rfl, rfl⟩

end Reservation.Assigned

theorem Funds.Path.assigned {L : Change → Prop} {f f' : Funds} (hf : f.Lawful) (h : Path L f f') :
    Basis.Extends Reservation.Assigned f.reservations f'.reservations := by
  have hboth : f'.Lawful ∧ Basis.Extends Reservation.Assigned f.reservations f'.reservations := by
    induction h with
    | refl => exact ⟨hf, .refl .refl⟩
    | step hpath hc hs ih =>
        obtain ⟨hl, hkept⟩ := ih
        have hstep : Basis.Extends Reservation.Assigned _ _ :=
          .of_evolves .refl (fun hr ht => .of_turns (hl.rows.reservation hr).shape ht) hs.reservation
        exact ⟨Funds.Path.lawful (.step hpath hc hs) hf,
          hkept.trans hstep fun _ _ _ h h' => h.trans h'⟩
  exact hboth.2

theorem Sys.Step.assigned {s s' : Sys} {a : Action} (hs : s.Lawful) (h : Step s a s') :
    Basis.Extends Reservation.Assigned s.db.funds.reservations s'.db.funds.reservations :=
  Funds.Path.assigned hs.funds (h.path hs)

/-! ## Uploads and their intents -/

/-- The intent under another state. -/
structure ProtocolIntent.SameTerms (i i' : ProtocolIntent) : Prop where
  reservationId : i'.reservationId = i.reservationId
  kind : i'.kind = i.kind
  payload : i'.payload = i.payload
  payloadText : i'.payloadText = i.payloadText

theorem ProtocolIntent.Turns.sameTerms {i i' : ProtocolIntent} (h : i.Turns i') :
    i.SameTerms i' := by
  cases h <;> exact ⟨rfl, rfl, rfl, rfl⟩

namespace MemberProtocol

/-- What is queued for an upload. -/
def upstream (benchmarkId : String) (kind : IntentKind) (payload : Json) : Json :=
  let upstream := payload.set "benchmark_id" (.str benchmarkId)
  if kind = .results then upstream.set "stopped" (.bool false) else upstream

/-- What is stored of results. -/
def resultOf (merkleRoot : String) (qualities : List ℤ) : Json :=
  .obj [("merkle_root", .str merkleRoot), ("solution_quality", .arr (qualities.map .int))]

/-- A Merkle root for the whole benchmark, and a quality for each of its nonces. -/
def IsResult (count : Option Json) (payload : Json) : Prop :=
  ∃ (merkleRoot : String) (qualities : List ℤ), payload = resultOf merkleRoot qualities ∧
    merkleRoot.length = 64 ∧ (∀ q ∈ qualities, -(2 ^ 31) ≤ q ∧ q < 2 ^ 31) ∧
    count = some (.int qualities.length)

/-- Proofs for the nonces, each of which leads to the root of the results. -/
def IsProof (blake3 : Blake3) (count : ℕ) (nonces result payload : Json) : Prop :=
  ∃ values : List Json, payload = .obj [("merkle_proofs", .arr values)] ∧
    nonces = .arr (values.map fun v => .int (nonceOf v)) ∧
    ∀ v ∈ values, ∃ opening, readOpening count v = .ok opening ∧
      nonceOf v = opening.leaf.nonce ∧
      result.get? "merkle_root" = some (.str (opening.root blake3).hex)

end MemberProtocol

namespace Db

/-- The intent carries the upload of a benchmark that is handed over. -/
structure Carries (db : Db) (benchmarkId : String) (kind : IntentKind) (p : BenchmarkPayload)
    (i : ProtocolIntent) : Prop where
  queued : i.kind = kind
  payload : i.payload = MemberProtocol.upstream benchmarkId kind p.payload
  text : i.payloadText = MemberProtocol.upstream benchmarkId kind p.payload
  reservation : ∃ r, db.funds.reservations.lookup i.reservationId = some r ∧
    r.benchmarkId = some benchmarkId ∧ r.handedOverAt.isSome

/-- Uploads and intents of results and proofs name each other. -/
structure Filed (db : Db) : Prop where
  upload : ∀ {benchmarkId kind p}, db.work.benchmarkPayloads.lookup (benchmarkId, kind) = some p →
    kind ≠ .precommit ∧ ∃ intentId i, db.work.protocolOutbox.lookup intentId = some i ∧
      db.Carries benchmarkId kind p i
  intent : ∀ {intentId i}, db.work.protocolOutbox.lookup intentId = some i →
    i.kind ≠ .precommit → ∃ benchmarkId p,
      db.work.benchmarkPayloads.lookup (benchmarkId, i.kind) = some p ∧
      db.Carries benchmarkId i.kind p i
  results : ∀ {benchmarkId p}, db.work.benchmarkPayloads.lookup (benchmarkId, .results) = some p →
    ∃ id r, db.funds.reservations.lookup id = some r ∧ r.benchmarkId = some benchmarkId ∧
      MemberProtocol.IsResult (MemberProtocol.nonceCount r) p.payload

/-- The proofs are for the sampled nonces of the benchmark, against the results. -/
def Proves (blake3 : Blake3) (db : Db) (benchmarkId : String) (p : BenchmarkPayload) : Prop :=
  ∃ id r count result progress, db.funds.reservations.lookup id = some r ∧
    r.benchmarkId = some benchmarkId ∧ MemberProtocol.assignedNonces r = .ok count ∧
    db.work.benchmarkPayloads.lookup (benchmarkId, .results) = some result ∧
    db.work.benchmarkProgress.lookup benchmarkId = some progress ∧
    MemberProtocol.IsProof blake3 count progress.sampledNonces result.payload p.payload

/-- Every upload of proofs is one for the sampled nonces, against the results. -/
def Proven (blake3 : Blake3) (db : Db) : Prop :=
  ∀ benchmarkId p, db.work.benchmarkPayloads.lookup (benchmarkId, .proofs) = some p →
    db.Proves blake3 benchmarkId p

/-- Nonces are sampled for every benchmark with proofs. -/
def Samples (db : Db) : Prop :=
  ∀ benchmarkId p, db.work.benchmarkPayloads.lookup (benchmarkId, .proofs) = some p →
    ∃ progress, db.work.benchmarkProgress.lookup benchmarkId = some progress

/-- What is on record stays: uploads and sampled nonces as they are, intents with their terms,
reservations with their assignment. -/
structure Persists (db db' : Db) : Prop where
  payloads : Basis.Extends Eq db.work.benchmarkPayloads db'.work.benchmarkPayloads
  progress : Basis.Extends Eq db.work.benchmarkProgress db'.work.benchmarkProgress
  intents : Basis.Extends ProtocolIntent.SameTerms db.work.protocolOutbox db'.work.protocolOutbox
  assigned : Basis.Extends Reservation.Assigned db.funds.reservations db'.funds.reservations
  handed : Basis.Extends (fun r r' => r.handedOverAt.isSome → r'.handedOverAt.isSome)
    db.funds.reservations db'.funds.reservations

end Db

/-! ## They stay in step -/

namespace Db

variable {db db' : Db}

theorem Carries.persists {benchmarkId : String} {kind : IntentKind} {p : BenchmarkPayload}
    {i i' : ProtocolIntent} (h : db.Carries benchmarkId kind p i) (hx : db.Persists db')
    (hsame : i.SameTerms i') : db'.Carries benchmarkId kind p i' where
  queued := hsame.kind.trans h.queued
  payload := hsame.payload.trans h.payload
  text := hsame.payloadText.trans h.text
  reservation := by
    obtain ⟨r, hr, hid, hhanded⟩ := h.reservation
    obtain ⟨r', hr', hassigned⟩ := hx.assigned hr
    obtain ⟨r'', hr'', hstill⟩ := hx.handed hr
    obtain rfl := Option.some.inj (hr'.symm.trans hr'')
    rw [hsame.reservationId]
    exact ⟨r', hr', (hassigned (Option.isSome_of_eq_some hid)).1.trans hid, hstill hhanded⟩

namespace Filed

/-- What holds of an upload holds of it later. -/
theorem persists_results (hf : db.Filed) (hx : db.Persists db') {benchmarkId : String}
    {p : BenchmarkPayload} (hp : db.work.benchmarkPayloads.lookup (benchmarkId, .results) = some p) :
    ∃ id r, db'.funds.reservations.lookup id = some r ∧ r.benchmarkId = some benchmarkId ∧
      MemberProtocol.IsResult (MemberProtocol.nonceCount r) p.payload := by
  obtain ⟨id, r, hr, hid, hresult⟩ := hf.results hp
  obtain ⟨r', hr', hassigned⟩ := hx.assigned hr
  obtain ⟨hsame, hassignment, -⟩ := hassigned (Option.isSome_of_eq_some hid)
  refine ⟨id, r', hr', hsame.trans hid, ?_⟩
  rw [MemberProtocol.nonceCount, hassignment]
  exact hresult

/-- Where nothing is handed in, they stay in step. -/
theorem kept (hf : db.Filed) (hx : db.Persists db')
    (hsame : db'.work.benchmarkPayloads = db.work.benchmarkPayloads)
    (hqueues : db.QueuesNothing db') : db'.Filed where
  upload {benchmarkId kind p} hp := by
    rw [hsame] at hp
    obtain ⟨hkind, intentId, i, hi, hcarries⟩ := hf.upload hp
    obtain ⟨i', hi', hterms⟩ := hx.intents hi
    exact ⟨hkind, intentId, i', hi', hcarries.persists hx hterms⟩
  intent {intentId i'} hi' hkind := by
    obtain ⟨i, hi⟩ := hqueues hi' hkind
    obtain ⟨i'', hi'', hterms⟩ := hx.intents hi
    obtain rfl := Option.some.inj (hi'.symm.trans hi'')
    rw [hterms.kind] at hkind ⊢
    obtain ⟨benchmarkId, p, hp, hcarries⟩ := hf.intent hi hkind
    exact ⟨benchmarkId, p, hx.payloads.lookup hp, hcarries.persists hx hterms⟩
  results hp := by
    rw [hsame] at hp
    exact hf.persists_results hx hp

/-- What is handed in is stored and queued. -/
theorem handedIn (hf : db.Filed) (hx : db.Persists db') {benchmarkId : String} {kind : IntentKind}
    {p : BenchmarkPayload} {intentId : Uuid} {i : ProtocolIntent} (hkind : kind ≠ .precommit)
    (hpayloads : db'.work.benchmarkPayloads
      = AList.insert (benchmarkId, kind) p db.work.benchmarkPayloads)
    (houtbox : db'.work.protocolOutbox = AList.insert intentId i db.work.protocolOutbox)
    (hcarries : db'.Carries benchmarkId kind p i)
    (hresults : kind = .results → ∃ id r, db'.funds.reservations.lookup id = some r ∧
      r.benchmarkId = some benchmarkId ∧
      MemberProtocol.IsResult (MemberProtocol.nonceCount r) p.payload) : db'.Filed where
  upload {benchmarkId' kind' p'} hp' := by
    rw [hpayloads] at hp'
    rcases Table.lookup_insert_cases hp' with ⟨heq, rfl⟩ | ⟨-, hp'⟩
    · obtain ⟨rfl, rfl⟩ := Prod.mk.inj heq
      refine ⟨hkind, intentId, i, ?_, hcarries⟩
      rw [houtbox]
      exact AList.lookup_insert _
    · obtain ⟨hkind', intentId', i', hi', hcarries'⟩ := hf.upload hp'
      obtain ⟨i'', hi'', hterms⟩ := hx.intents hi'
      exact ⟨hkind', intentId', i'', hi'', hcarries'.persists hx hterms⟩
  intent {intentId' i'} hi' hkind' := by
    have hnew := hi'
    rw [houtbox] at hnew
    rcases Table.lookup_insert_cases hnew with ⟨rfl, rfl⟩ | ⟨-, hold⟩
    · rw [hcarries.queued]
      refine ⟨benchmarkId, p, ?_, hcarries⟩
      rw [hpayloads]
      exact AList.lookup_insert _
    · obtain ⟨benchmarkId', p', hp', hcarries'⟩ := hf.intent hold hkind'
      obtain ⟨i'', hi'', hterms⟩ := hx.intents hold
      obtain rfl := Option.some.inj (hi'.symm.trans hi'')
      exact ⟨benchmarkId', p', hx.payloads.lookup hp', hcarries'.persists hx hterms⟩
  results {benchmarkId' p'} hp' := by
    rw [hpayloads] at hp'
    rcases Table.lookup_insert_cases hp' with ⟨heq, rfl⟩ | ⟨-, hp'⟩
    · obtain ⟨rfl, hsame⟩ := Prod.mk.inj heq
      exact hresults hsame.symm
    · exact hf.persists_results hx hp'

end Filed

/-- What holds of an upload of proofs holds of it later. -/
theorem Proves.persists {blake3 : Blake3} {benchmarkId : String} {p : BenchmarkPayload}
    (h : db.Proves blake3 benchmarkId p) (hx : db.Persists db') :
    db'.Proves blake3 benchmarkId p := by
  obtain ⟨id, r, count, result, progress, hr, hid, hcount, hresult, hprogress, hproof⟩ := h
  obtain ⟨r', hr', hassigned⟩ := hx.assigned hr
  obtain ⟨hsame, hassignment, -⟩ := hassigned (Option.isSome_of_eq_some hid)
  refine ⟨id, r', count, result, progress, hr', hsame.trans hid, ?_, hx.payloads.lookup hresult,
    hx.progress.lookup hprogress, hproof⟩
  rw [MemberProtocol.assignedNonces, MemberProtocol.nonceCount, hassignment]
  exact hcount

end Db

namespace MemberProtocol

variable {db db' : Db} {identity memberId intent : Uuid} {benchmarkId : String}

/-- The first upload of its kind is stored and queued, by the member to whom the accepted
benchmark is handed over. -/
structure Stores (db : Db) (identity : Uuid) (row : Reservation) (benchmarkId : String)
    (kind : IntentKind) (payload : Json) (intent : Uuid) (db' : Db) : Prop where
  handed : row.handedOverAt.isSome
  accepted : row.state = .accepted
  first : db.work.benchmarkPayloads.lookup (benchmarkId, kind) = none
  writes : db' = { db with work := { db.work with
    benchmarkPayloads := AList.insert (benchmarkId, kind) ⟨payload, payload⟩
      db.work.benchmarkPayloads
    protocolOutbox := AList.insert intent
      { reservationId := identity, kind, payload := upstream benchmarkId kind payload
        payloadText := upstream benchmarkId kind payload
        digest := upstream benchmarkId kind payload, createdAt := db.clock }
      db.work.protocolOutbox } }

theorem store_spec (hf : db.Filed) {row : Reservation} {kind : IntentKind} {payload : Json}
    (hkind : kind ≠ .precommit) (hrow : db.funds.reservations.lookup identity = some row)
    (hid : row.benchmarkId = some benchmarkId)
    (h : store db identity row benchmarkId kind payload intent = .ok db') :
    db' = db ∨ Stores db identity row benchmarkId kind payload intent db' := by
  simp only [store, bind_eq_ok, require_eq_ok, exists_const] at h
  obtain ⟨hhanded, h⟩ := h
  split at h
  next =>
    simp only [bind_eq_ok, require_eq_ok, exists_const, pure_eq_ok] at h
    exact .inl h.2.symm
  next hnone =>
    simp only [bind_eq_ok, require_eq_ok, exists_const] at h
    obtain ⟨hstate, henqueue⟩ := h
    rcases WorkRequests.enqueue_cases henqueue with ⟨-, k, i, hi, rfl, rfl⟩ | ⟨-, -, rfl⟩
    · -- An intent of this kind would carry an upload that is on record.
      obtain ⟨benchmarkId', p, hp, hcarries⟩ := hf.intent hi hkind
      obtain ⟨r, hr, hid', -⟩ := hcarries.reservation
      obtain rfl := Option.some.inj (hr.symm.trans hrow)
      obtain rfl := Option.some.inj (hid.symm.trans hid')
      rw [hnone] at hp
      cases hp
    · exact .inr ⟨hhanded, hstate, hnone, rfl⟩

theorem Stores.carries {row : Reservation} {kind : IntentKind} {payload : Json}
    (h : Stores db identity row benchmarkId kind payload intent db')
    (hrow : db.funds.reservations.lookup identity = some row)
    (hid : row.benchmarkId = some benchmarkId) :
    db'.Carries benchmarkId kind ⟨payload, payload⟩
      { reservationId := identity, kind, payload := upstream benchmarkId kind payload
        payloadText := upstream benchmarkId kind payload
        digest := upstream benchmarkId kind payload, createdAt := db.clock } where
  queued := rfl
  payload := rfl
  text := rfl
  reservation := by
    rw [h.writes]
    exact ⟨row, hrow, hid, h.handed⟩

theorem results_spec {merkleRoot : String} {qualities : List ℤ}
    (h : results db benchmarkId memberId merkleRoot qualities intent = .ok db') :
    ∃ identity row, db.funds.reservations.lookup identity = some row ∧
      row.benchmarkId = some benchmarkId ∧ row.memberId = memberId ∧
      IsResult (nonceCount row) (resultOf merkleRoot qualities) ∧
      store db identity row benchmarkId .results (resultOf merkleRoot qualities) intent
        = .ok db' := by
  simp only [results, bind_eq_ok, require_eq_ok, exists_const] at h
  obtain ⟨⟨hlength, -⟩, hbounds, ⟨identity, row⟩, howned, hcount, hstore⟩ := h
  obtain ⟨hrow, hid⟩ := owned_spec howned
  refine ⟨identity, row, hrow, hid, ?_, ⟨merkleRoot, qualities, rfl, hlength, hbounds, hcount⟩,
    hstore⟩
  simp only [owned, bind_eq_ok, require_eq_ok, exists_const, fetch_eq_ok, pure_eq_ok,
    Prod.mk.injEq] at howned
  obtain ⟨⟨_, _⟩, -, howner, rfl, rfl⟩ := howned
  exact howner

/-- A proof that can be read names its nonce. -/
theorem nonceOf_readOpening {count : ℕ} {proof : Json} {opening : Opening}
    (h : readOpening count proof = .ok opening) : nonceOf proof = opening.leaf.nonce := by
  simp only [readOpening, Protocol.field, bind_eq_ok, require_eq_ok, exists_const, fetch_eq_ok] at h
  obtain ⟨members, -, -, leafJson, hleaf, leaf, hread, branch, -, hsteps⟩ := h
  have hsame : opening.leaf = leaf := by
    split at hsteps
    next =>
      simp only [bind_eq_ok, require_eq_ok, exists_const, pure_eq_ok] at hsteps
      obtain ⟨-, -, steps, -, rfl⟩ := hsteps
      rfl
    next => cases hsteps
  simp only [readLeaf, Protocol.field, bind_eq_ok, require_eq_ok, exists_const,
    fetch_eq_ok] at hread
  obtain ⟨_, -, -, value, hvalue, nonce, hnonce, _, -, signature, -, _, -, fuel, -, -, _, -, _, -,
    hmade⟩ := hread
  have hleafNonce : leaf.nonce = nonce := by
    split at hmade
    next =>
      split at hmade
      next => rw [← pure_eq_ok.mp hmade]
      next => cases hmade
    next => cases hmade
  rw [nonceOf, hleaf, Option.bind_some, hvalue, hsame, hleafNonce]
  unfold readUint64 at hnonce
  split at hnonce
  next n =>
    split at hnonce
    next =>
      simp only [bind_eq_ok, require_eq_ok, exists_const, pure_eq_ok] at hnonce
      obtain ⟨hpos, rfl⟩ := hnonce
      exact (Int.toNat_of_nonneg hpos).symm
    next => cases hnonce
  next => cases hnonce

theorem checkProof_spec {blake3 : Blake3} {count : ℕ} {merkleRoot : Option Json} {proof : Json}
    {nonce : ℤ} (h : checkProof blake3 count merkleRoot proof = .ok nonce) :
    nonce = nonceOf proof ∧ ∃ opening, readOpening count proof = .ok opening ∧
      nonceOf proof = opening.leaf.nonce ∧
      merkleRoot = some (.str (opening.root blake3).hex) := by
  simp only [checkProof, proofRoot, bind_eq_ok, require_eq_ok, exists_const, pure_eq_ok] at h
  obtain ⟨_, ⟨opening, hopening, rfl⟩, hroot, rfl⟩ := h
  exact ⟨rfl, opening, hopening, nonceOf_readOpening hopening, hroot⟩

theorem proofs_spec {blake3 : Blake3} {values : List Json}
    (h : proofs blake3 db benchmarkId memberId values intent = .ok db') :
    ∃ identity row count result progress, db.funds.reservations.lookup identity = some row ∧
      row.benchmarkId = some benchmarkId ∧ row.memberId = memberId ∧
      assignedNonces row = .ok count ∧
      db.work.benchmarkPayloads.lookup (benchmarkId, .results) = some result ∧
      db.work.benchmarkProgress.lookup benchmarkId = some progress ∧
      IsProof blake3 count progress.sampledNonces result.payload (proofOf values) ∧
      store db identity row benchmarkId .proofs (proofOf values) intent = .ok db' := by
  simp only [proofs, bind_eq_ok, require_eq_ok, exists_const, fetch_eq_ok] at h
  obtain ⟨⟨identity, row⟩, howned, progress, hprogress, result, hresult, count, hcount, nonces,
    hnonces, hsampled, hstore⟩ := h
  obtain ⟨hrow, hid⟩ := owned_spec howned
  have hread : nonces = values.map nonceOf := by
    have hmap : nonces.map id = values.map nonceOf :=
      map_of_mapM_ok (fun _ _ hcheck => (checkProof_spec hcheck).1) hnonces
    rwa [List.map_id] at hmap
  -- Sorting the nonces is sorting the proofs by their nonces.
  have hsorted : nonces.insertionSort (· ≤ ·)
      = (values.insertionSort fun a b => nonceOf a ≤ nonceOf b).map nonceOf := by
    rw [hread]
    exact (List.map_insertionSort _ _ nonceOf values fun _ _ _ _ => Iff.rfl).symm
  have hproof : IsProof blake3 count progress.sampledNonces result.payload (proofOf values) := by
    refine ⟨_, rfl, ?_, fun v hv => ?_⟩
    · rw [hsampled, hsorted, List.map_map]
      rfl
    · have hv := (List.perm_insertionSort _ _).mem_iff.mp hv
      obtain ⟨_, -, hcheck⟩ := exists_of_mapM_ok hnonces hv
      exact (checkProof_spec hcheck).2
  refine ⟨identity, row, count, result, progress, hrow, hid, ?_, hcount, hresult, hprogress,
    hproof, hstore⟩
  simp only [owned, bind_eq_ok, require_eq_ok, exists_const, fetch_eq_ok, pure_eq_ok,
    Prod.mk.injEq] at howned
  obtain ⟨⟨_, _⟩, -, howner, rfl, rfl⟩ := howned
  exact howner

/-- Sampled nonces are stored once. -/
theorem sampled_spec {nonces : List ℕ} {evidence : Json}
    (h : sampled db benchmarkId nonces evidence = .ok db') :
    db' = db ∨ db.work.benchmarkProgress.lookup benchmarkId = none ∧
      ∃ progress, db' = { db with work := { db.work with
        benchmarkProgress := AList.insert benchmarkId progress db.work.benchmarkProgress } } := by
  simp only [sampled, bind_eq_ok, require_eq_ok, exists_const] at h
  obtain ⟨-, ⟨identity, row⟩, -, -, h⟩ := h
  split at h
  next =>
    simp only [bind_eq_ok, require_eq_ok, exists_const, pure_eq_ok] at h
    exact .inl h.2.symm
  next hnone => exact .inr ⟨hnone, _, (Except.ok.inj h).symm⟩

end MemberProtocol

namespace Sys

variable {s s' : Sys} {a : Action}

/-- Uploads and sampled nonces stay as they are. -/
theorem Step.payloads (hs : s.Lawful) (hf : s.db.Filed) (h : Step s a s') :
    Basis.Extends Eq s.db.work.benchmarkPayloads s'.db.work.benchmarkPayloads ∧
      Basis.Extends Eq s.db.work.benchmarkProgress s'.db.work.benchmarkProgress := by
  have hrefl {α β : Type} [DecidableEq α] (t : Table α β) : Basis.Extends Eq t t :=
    .refl fun _ => rfl
  have hstore {db db' : Db} {identity intent : Uuid} {row : Reservation} {benchmarkId : String}
      {kind : IntentKind} {payload : Json}
      (h : db' = db ∨ MemberProtocol.Stores db identity row benchmarkId kind payload intent db') :
      Basis.Extends Eq db.work.benchmarkPayloads db'.work.benchmarkPayloads ∧
        Basis.Extends Eq db.work.benchmarkProgress db'.work.benchmarkProgress := by
    rcases h with rfl | h
    · exact ⟨hrefl _, hrefl _⟩
    · rw [h.writes]
      exact ⟨.fresh (fun _ => rfl) h.first, hrefl _⟩
  by_cases hhands : ∀ w, a = .work w → w.handsIn = false
  · have hsame := h.uploads hs hhands
    rw [hsame.payloads, hsame.progress]
    exact ⟨hrefl _, hrefl _⟩
  cases h with
  | work h =>
      cases h with
      | results h =>
          obtain ⟨identity, row, hrow, hid, -, -, hrun⟩ := MemberProtocol.results_spec h
          exact hstore (MemberProtocol.store_spec hf (by decide) hrow hid hrun)
      | sampled h =>
          rcases MemberProtocol.sampled_spec h with rfl | ⟨hnone, progress, rfl⟩
          · exact ⟨hrefl _, hrefl _⟩
          · exact ⟨hrefl _, .fresh (fun _ => rfl) hnone⟩
      | proofs h =>
          obtain ⟨identity, row, -, -, -, hrow, hid, -, -, -, -, -, hrun⟩ :=
            MemberProtocol.proofs_spec h
          exact hstore (MemberProtocol.store_spec hf (by decide) hrow hid hrun)
      | _ =>
          refine absurd (fun w heq => ?_) hhands
          obtain rfl := Action.work.inj heq
          rfl
  | _ => exact absurd (fun w heq => by cases heq) hhands

theorem Step.persists (hs : s.Lawful) (hc : s.db.Coupled) (hf : s.db.Filed) (ha : Whole s a)
    (h : Step s a s') : s.db.Persists s'.db where
  payloads := (h.payloads hs hf).1
  progress := (h.payloads hs hf).2
  intents :=
    .of_evolves (fun _ => ⟨rfl, rfl, rfl, rfl⟩) (fun _ => ProtocolIntent.Turns.sameTerms)
      (h.dispatches hs hc ha).intents
  assigned := h.assigned hs
  handed _ _ hr := by
    obtain ⟨r', hr', hx⟩ := (h.extends hs).reservation hr
    exact ⟨r', hr', hx.handedOverAt.isSome⟩

theorem Step.filed (hs : s.Lawful) (hc : s.db.Coupled) (hf : s.db.Filed) (ha : Whole s a)
    (h : Step s a s') : s'.db.Filed := by
  have hx := h.persists hs hc hf ha
  by_cases hhands : ∀ w, a = .work w → w.handsIn = false
  · exact hf.kept hx (h.uploads hs hhands).payloads (h.queuesNothing hs hhands)
  cases h with
  | work h =>
      cases h with
      | results h =>
          obtain ⟨identity, row, hrow, hid, -, hresult, hrun⟩ :=
            MemberProtocol.results_spec h
          rcases MemberProtocol.store_spec hf (by decide) hrow hid hrun with rfl | hstores
          · exact hf
          · have hcarries := hstores.carries hrow hid
            obtain ⟨-, -, -, rfl⟩ := hstores
            exact hf.handedIn hx (by decide) rfl rfl hcarries
              fun _ => ⟨identity, row, hrow, hid, hresult⟩
      | sampled h =>
          have hqueues := Db.QueuesNothing.of_rests (MemberProtocol.sampled_rests h)
          rcases MemberProtocol.sampled_spec h with rfl | ⟨hnone, progress, rfl⟩
          · exact hf
          · exact hf.kept hx rfl hqueues
      | proofs h =>
          obtain ⟨identity, row, -, -, -, hrow, hid, -, -, -, -, -, hrun⟩ :=
            MemberProtocol.proofs_spec h
          rcases MemberProtocol.store_spec hf (by decide) hrow hid hrun with rfl | hstores
          · exact hf
          · have hcarries := hstores.carries hrow hid
            obtain ⟨-, -, -, rfl⟩ := hstores
            exact hf.handedIn hx (by decide) rfl rfl hcarries nofun
      | _ =>
          refine absurd (fun w heq => ?_) hhands
          obtain rfl := Action.work.inj heq
          rfl
  | _ => exact absurd (fun w heq => by cases heq) hhands

/-- Proofs are checked with this hash function. -/
def Hashing (blake3 : Blake3) (s : Sys) (a : Action) : Prop :=
  Whole s a ∧ ∀ f, a = .work (.proofs f) → f = blake3

/-- Proofs were on record before, or this step has checked them. -/
theorem Step.proofs_back (hs : s.Lawful) (hf : s.db.Filed) (h : Step s a s') {benchmarkId : String}
    {p : BenchmarkPayload}
    (hp : s'.db.work.benchmarkPayloads.lookup (benchmarkId, .proofs) = some p) :
    s.db.work.benchmarkPayloads.lookup (benchmarkId, .proofs) = some p ∨
      ∃ blake3, a = .work (.proofs blake3) ∧ s.db.Proves blake3 benchmarkId p := by
  by_cases hhands : ∀ w, a = .work w → w.handsIn = false
  · rw [(h.uploads hs hhands).payloads] at hp
    exact .inl hp
  cases h with
  | work h =>
      cases h with
      | results h =>
          obtain ⟨identity, row, hrow, hid, -, -, hrun⟩ := MemberProtocol.results_spec h
          rcases MemberProtocol.store_spec hf (by decide) hrow hid hrun with rfl | hstores
          · exact .inl hp
          · rw [hstores.writes] at hp
            rcases Table.lookup_insert_cases hp with ⟨heq, -⟩ | ⟨-, hold⟩
            · cases heq
            · exact .inl hold
      | sampled h =>
          rcases MemberProtocol.sampled_spec h with rfl | ⟨-, progress, rfl⟩
          · exact .inl hp
          · exact .inl hp
      | @proofs blake3 _ _ _ _ _ h =>
          obtain ⟨identity, row, count, result, progress, hrow, hid, -, hcount, hresult,
            hprogress, hproof, hrun⟩ := MemberProtocol.proofs_spec h
          rcases MemberProtocol.store_spec hf (by decide) hrow hid hrun with rfl | hstores
          · exact .inl hp
          · rw [hstores.writes] at hp
            rcases Table.lookup_insert_cases hp with ⟨heq, rfl⟩ | ⟨-, hold⟩
            · obtain ⟨rfl, -⟩ := Prod.mk.inj heq
              exact .inr ⟨blake3, rfl, identity, row, count, result, progress, hrow, hid, hcount,
                hresult, hprogress, hproof⟩
            · exact .inl hold
      | _ =>
          refine absurd (fun w heq => ?_) hhands
          obtain rfl := Action.work.inj heq
          rfl
  | _ => exact absurd (fun w heq => by cases heq) hhands

theorem Step.proven {blake3 : Blake3} (hs : s.Lawful) (hc : s.db.Coupled) (hf : s.db.Filed)
    (hp : s.db.Proven blake3) (ha : Hashing blake3 s a) (h : Step s a s') :
    s'.db.Proven blake3 := by
  intro benchmarkId p hlookup
  have hx := h.persists hs hc hf ha.1
  rcases h.proofs_back hs hf hlookup with hold | ⟨f, heq, hproves⟩
  · exact (hp _ _ hold).persists hx
  · obtain rfl := ha.2 f heq
    exact hproves.persists hx

/-- Nonces are sampled for a benchmark before proofs of it are handed in. -/
theorem Step.samples (hs : s.Lawful) (hc : s.db.Coupled) (hf : s.db.Filed) (ha : Whole s a)
    (hi : s.db.Samples) (h : Step s a s') : s'.db.Samples := by
  intro benchmarkId p hp
  have hx := h.persists hs hc hf ha
  rcases h.proofs_back hs hf hp with hold | ⟨f, -, hproves⟩
  · obtain ⟨progress, hprogress⟩ := hi _ _ hold
    exact ⟨progress, hx.progress.lookup hprogress⟩
  · obtain ⟨-, -, -, -, progress, -, -, -, -, hprogress, -⟩ := hproves
    exact ⟨progress, hx.progress.lookup hprogress⟩

/-- Only `sampled` writes sampled nonces. -/
theorem Step.progress_same (hs : s.Lawful) (hf : s.db.Filed) (h : Step s a s')
    (hne : a ≠ .work .sampled) :
    s'.db.work.benchmarkProgress = s.db.work.benchmarkProgress := by
  by_cases hhands : ∀ w, a = .work w → w.handsIn = false
  · exact (h.uploads hs hhands).progress
  cases h with
  | work h =>
      cases h with
      | results h =>
          obtain ⟨identity, row, hrow, hid, -, -, hrun⟩ := MemberProtocol.results_spec h
          rcases MemberProtocol.store_spec hf (by decide) hrow hid hrun with rfl | hstores
          · rfl
          · rw [hstores.writes]
      | sampled => exact absurd rfl hne
      | proofs h =>
          obtain ⟨identity, row, -, -, -, hrow, hid, -, -, -, -, -, hrun⟩ :=
            MemberProtocol.proofs_spec h
          rcases MemberProtocol.store_spec hf (by decide) hrow hid hrun with rfl | hstores
          · rfl
          · rw [hstores.writes]
      | _ =>
          refine absurd (fun w heq => ?_) hhands
          obtain rfl := Action.work.inj heq
          rfl
  | _ => exact absurd (fun w heq => by cases heq) hhands

end Sys

/-! ## Every run -/

namespace Sys

variable {s s' : Sys} {a : Action}

/-- A migrated service to which nothing was handed in. -/
structure Blank (s : Sys) : Prop where
  initial : s.Initial
  uploads : s.db.work.benchmarkPayloads = ∅

/-- The states that whole transactions reach from such a service. -/
def Works (s : Sys) : Prop :=
  ∃ s₀, Blank s₀ ∧ Leads Step Whole s₀ s

namespace Works

theorem reachable (h : s.Works) : Reachable Whole s := by
  obtain ⟨s₀, h₀, hrun⟩ := h
  exact ⟨s₀, h₀.initial, hrun⟩

theorem run (h : s.Works) (hrun : Leads Step Whole s s') : s'.Works := by
  obtain ⟨s₀, h₀, hbefore⟩ := h
  exact ⟨s₀, h₀, hbefore.trans hrun⟩

theorem step (h : s.Works) (ha : Whole s a) (hs : Step s a s') : s'.Works :=
  h.run (.one ha hs)

theorem filed (h : s.Works) : s.db.Filed := by
  obtain ⟨s₀, h₀, hrun⟩ := h
  have hboth : Reachable Whole s ∧ s.db.Filed := by
    refine hrun.invariant (I := fun t => Reachable Whole t ∧ t.db.Filed)
      ⟨⟨s₀, h₀.initial, .refl⟩, ?_⟩ ?_
    · refine ⟨fun hp => ?_, fun hi => ?_, fun hp => ?_⟩
      · rw [h₀.uploads] at hp
        cases hp
      · rw [h₀.initial.outbox] at hi
        cases hi
      · rw [h₀.uploads] at hp
        cases hp
    · rintro t a t' ha ⟨ht, hf⟩ hstep
      exact ⟨ht.step ha hstep, hstep.filed ht.lawful ht.coupled hf ha⟩
  exact hboth.2

theorem samples (h : s.Works) : s.db.Samples := by
  obtain ⟨s₀, h₀, hrun⟩ := h
  have hboth : s.Works ∧ s.db.Samples := by
    refine hrun.invariant (I := fun t => t.Works ∧ t.db.Samples)
      ⟨⟨s₀, h₀, .refl⟩, fun _ _ hp => ?_⟩ ?_
    · rw [h₀.uploads] at hp
      cases hp
    · rintro t a t' ha ⟨ht, hi⟩ hstep
      exact ⟨ht.step ha hstep,
        hstep.samples ht.reachable.lawful ht.reachable.coupled ht.filed ha hi⟩
  exact hboth.2

theorem persists (h : s.Works) (ha : Whole s a) (hs : Step s a s') : s.db.Persists s'.db :=
  hs.persists h.reachable.lawful h.reachable.coupled h.filed ha

/-- Uploads are never lost or changed. -/
theorem run_payloads (h : s.Works) (hrun : Leads Step Whole s s') :
    Basis.Extends Eq s.db.work.benchmarkPayloads s'.db.work.benchmarkPayloads :=
  Leads.relates (I := Works)
    (R := fun t u : Sys => Basis.Extends Eq t.db.work.benchmarkPayloads u.db.work.benchmarkPayloads)
    hrun h (fun _ => .refl fun _ => rfl) (fun h h' => h.trans h' fun _ _ _ => Eq.trans)
    (fun _ _ _ ha ht hs => ht.step ha hs) fun _ _ _ ha ht hs => (ht.persists ha hs).payloads

/-- An upload is carried by one intent. -/
theorem carried_once (h : s.Works) {benchmarkId : String} {kind : IntentKind}
    {p : BenchmarkPayload} {intentId intentId' : Uuid} {i i' : ProtocolIntent}
    (hi : s.db.work.protocolOutbox.lookup intentId = some i)
    (hi' : s.db.work.protocolOutbox.lookup intentId' = some i')
    (hcarries : s.db.Carries benchmarkId kind p i)
    (hcarries' : s.db.Carries benchmarkId kind p i') : intentId = intentId' := by
  have hc := h.reachable.coupled
  have hshape {id : Uuid} {r : Reservation} (hr : s.db.funds.reservations.lookup id = some r) :
      r.Shape := (h.reachable.lawful.funds.rows.reservation hr).shape
  obtain ⟨r, hr, hid, -⟩ := hcarries.reservation
  obtain ⟨r', hr', hid', -⟩ := hcarries'.reservation
  have hsame : i.reservationId = i'.reservationId :=
    hc.owner_unique hshape (.inr ⟨r, hr, hid⟩) (.inr ⟨r', hr', hid'⟩)
  exact hc.unique hi hi' hsame (hcarries.queued.trans hcarries'.queued.symm)

end Works

/-- The states that such transactions reach where all proofs are checked with one hash. -/
def WorksWith (blake3 : Blake3) (s : Sys) : Prop :=
  ∃ s₀, Blank s₀ ∧ Leads Step (Hashing blake3) s₀ s

namespace WorksWith

variable {blake3 : Blake3}

theorem works (h : s.WorksWith blake3) : s.Works := by
  obtain ⟨s₀, h₀, hrun⟩ := h
  exact ⟨s₀, h₀, hrun.mono fun _ _ ha => ha.1⟩

theorem step (h : s.WorksWith blake3) (ha : Hashing blake3 s a) (hs : Step s a s') :
    s'.WorksWith blake3 := by
  obtain ⟨s₀, h₀, hrun⟩ := h
  exact ⟨s₀, h₀, hrun.step ha hs⟩

theorem proven (h : s.WorksWith blake3) : s.db.Proven blake3 := by
  obtain ⟨s₀, h₀, hrun⟩ := h
  have hboth : s.WorksWith blake3 ∧ s.db.Proven blake3 := by
    refine hrun.invariant (I := fun t => t.WorksWith blake3 ∧ t.db.Proven blake3)
      ⟨⟨s₀, h₀, .refl⟩, fun _ _ hp => ?_⟩ ?_
    · rw [h₀.uploads] at hp
      cases hp
    · rintro t a t' ha ⟨ht, hp⟩ hstep
      have hworks := ht.works
      exact ⟨ht.step ha hstep, hstep.proven hworks.reachable.lawful hworks.reachable.coupled
        hworks.filed hp ha⟩
  exact hboth.2

end WorksWith

/-- Results are sent once they are handed in, and proofs once TIG has taken the results. -/
theorem Step.begins_upload {intentId : Uuid} (h : Step s (.work (.begin intentId)) s')
    {i : ProtocolIntent} (hi : s.db.work.protocolOutbox.lookup intentId = some i)
    (hkind : i.kind ≠ .precommit) :
    ∃ r, s.db.funds.reservations.lookup i.reservationId = some r ∧ r.state = .accepted ∧
      r.handedOverAt.isSome ∧ (i.kind = .proofs → ∃ k j,
        s.db.work.protocolOutbox.lookup k = some j ∧ j.reservationId = i.reservationId ∧
        j.kind = .results ∧ j.state = .accepted) := by
  cases h with
  | work h =>
      cases h with
      | begin h =>
          obtain ⟨row, intent, hlocked, -, hcases⟩ := Submissions.begin_spec h
          obtain ⟨hi', hrow⟩ := Submissions.locked_spec hlocked
          obtain rfl := Option.some.inj (hi.symm.trans hi')
          rcases hcases with ⟨hpre, -⟩ | ⟨-, hstate, hhanded, hafter, -⟩
          · exact absurd hpre hkind
          · refine ⟨row, hrow, hstate, hhanded, fun hproofs => ?_⟩
            rcases hafter with hresults | hany
            · rw [hproofs] at hresults
              cases hresults
            · obtain ⟨k, j, hj, hof⟩ := Table.any_iff.mp hany
              obtain ⟨hid, hresults, haccepted⟩ := of_decide_eq_true hof
              exact ⟨k, j, hj, hid, hresults, haccepted⟩

end Sys

/-- In every state that whole transactions reach: what a member has handed in is never changed
or lost, belongs to a benchmark that was handed over to the member, and is queued once, as it
is; nothing else is queued as results or proofs.  Results cover all nonces of the assignment,
proofs the sampled nonces, against the root of the results.  Results are sent for accepted work
that is handed over, and proofs after TIG has taken the results.  Only the member's
acknowledgement hands work over. -/
theorem uploads_kept {blake3 : Blake3} {s : Sys} (h : s.WorksWith blake3) :
    (∀ benchmarkId kind p, s.db.work.benchmarkPayloads.lookup (benchmarkId, kind) = some p →
      kind ≠ .precommit ∧
      (∃ intentId i, s.db.work.protocolOutbox.lookup intentId = some i ∧
        s.db.Carries benchmarkId kind p i ∧
        ∀ intentId' i', s.db.work.protocolOutbox.lookup intentId' = some i' →
          s.db.Carries benchmarkId kind p i' → intentId' = intentId) ∧
      ∀ s', Leads Sys.Step Sys.Whole s s' →
        s'.db.work.benchmarkPayloads.lookup (benchmarkId, kind) = some p) ∧
    (∀ intentId i, s.db.work.protocolOutbox.lookup intentId = some i → i.kind ≠ .precommit →
      ∃ benchmarkId p, s.db.work.benchmarkPayloads.lookup (benchmarkId, i.kind) = some p ∧
        s.db.Carries benchmarkId i.kind p i) ∧
    (∀ benchmarkId p, s.db.work.benchmarkPayloads.lookup (benchmarkId, .results) = some p →
      ∃ id r, s.db.funds.reservations.lookup id = some r ∧ r.benchmarkId = some benchmarkId ∧
        MemberProtocol.IsResult (MemberProtocol.nonceCount r) p.payload) ∧
    (∀ benchmarkId p, s.db.work.benchmarkPayloads.lookup (benchmarkId, .proofs) = some p →
      ∃ id r count result progress, s.db.funds.reservations.lookup id = some r ∧
        r.benchmarkId = some benchmarkId ∧ MemberProtocol.assignedNonces r = .ok count ∧
        s.db.work.benchmarkPayloads.lookup (benchmarkId, .results) = some result ∧
        s.db.work.benchmarkProgress.lookup benchmarkId = some progress ∧
        MemberProtocol.IsProof blake3 count progress.sampledNonces result.payload p.payload) ∧
    (∀ intentId i s', s.db.work.protocolOutbox.lookup intentId = some i → i.kind ≠ .precommit →
      Sys.Step s (.work (.begin intentId)) s' →
      ∃ r, s.db.funds.reservations.lookup i.reservationId = some r ∧ r.state = .accepted ∧
        r.handedOverAt.isSome ∧ (i.kind = .proofs → ∃ k j,
          s.db.work.protocolOutbox.lookup k = some j ∧ j.reservationId = i.reservationId ∧
          j.kind = .results ∧ j.state = .accepted)) ∧
    ∀ a s' id r', Sys.Whole s a → Sys.Step s a s' →
      s'.db.funds.reservations.lookup id = some r' → r'.handedOverAt.isSome →
      (∃ r, s.db.funds.reservations.lookup id = some r ∧ r.handedOverAt.isSome) ∨
        a = .funds (.acknowledge id) := by
  have hproven := h.proven
  have h := h.works
  have hf := h.filed
  refine ⟨fun benchmarkId kind p hp => ?_, fun _ _ => hf.intent, fun _ _ => hf.results,
    hproven, fun _ _ _ hi hkind hstep => hstep.begins_upload hi hkind,
    fun a s' id r' ha hstep hr' hsome => ?_⟩
  · obtain ⟨hkind, intentId, i, hi, hcarries⟩ := hf.upload hp
    refine ⟨hkind, ⟨intentId, i, hi, hcarries, fun intentId' i' hi' hcarries' => ?_⟩,
      fun s' hrun => (h.run_payloads hrun).lookup hp⟩
    exact h.carried_once hi' hi hcarries' hcarries
  · by_cases hne : ∀ k, a ≠ .funds (.acknowledge k)
    · exact .inl (hstep.handsNothing h.reachable.lawful ha hne hr' hsome)
    simp only [not_forall, not_not] at hne
    obtain ⟨k, rfl⟩ := hne
    cases hstep with
    | funds hstep =>
        cases hstep with
        | acknowledge hstep =>
            rcases Sys.acknowledge_handsOver hstep hr' hsome with hold | ⟨rfl, -⟩
            · exact .inl hold
            · exact .inr rfl

namespace UploadDay

open MemberProtocol

/-- The outputs of the two nonces. -/
def leaves : List Leaf := [output 0 10 "x" (by decide), output 1 20 "y" (by decide)]

def root : String := ((treeRoot foldHash leaves).map Digest.hex).getD ""

/-- The second output, opened. -/
def proof : Json := honestProof foldHash leaves (output 1 20 "y" (by decide))

/-- TIG has taken the results. -/
def taken : Wire := .obj [(Wire.codePoints "status", .int 200),
  (Wire.codePoints "body", .obj [(Wire.codePoints "ok", .bool true)])]

/-- Results of the benchmark are handed in and sent, and then the proof that TIG samples. -/
def run : Result Db := do
  let db ← LateDay.worked
  let db ← results db CreditedDay.benchmarkId "member" root [7, 8] "results"
  let (db, _) ← Submissions.begin db "results" none FirstDay.around
  let (db, _) ← Submissions.recordResponse db "results" taken "answer" ResponseDay.unlimited
  let db ← sampled db CreditedDay.benchmarkId [1] CreditedDay.evidence
  proofs foldHash db CreditedDay.benchmarkId "member" [proof] "proofs"

def handedIn : Sys where
  db := run.toOption.getD migrated
  held := Held.empty

theorem blank_migrated : Sys.Blank ⟨migrated, Held.empty⟩ := ⟨Sys.initial_migrated, rfl⟩

theorem acts_plain {a : Action} (h : LateDay.acts a = true) :
    Reconciliation.reconciles a = false ∧ ∀ blake3, a ≠ .work (.proofs blake3) := by
  constructor
  · cases a with
    | tick => cases h
    | _ action => cases action <;> first | rfl | cases h
  · rintro blake3 rfl
    cases h

theorem hashing {s : Sys} {w : WorkAction} (hw : ∀ f, w ≠ .proofs f) :
    Sys.Hashing foldHash s (.work w) :=
  ⟨fun _ heq => (by cases heq), fun f heq => absurd (Action.work.inj heq) (hw f)⟩

theorem works : handedIn.WorksWith foldHash := by
  have hrun : run = .ok handedIn.db := eq_ok_getD (by decide +kernel)
  simp only [run, bind_eq_ok] at hrun
  obtain ⟨db, hworked, db₁, h₁, ⟨db₂, _⟩, h₂, ⟨db₃, _⟩, h₃, db₄, h₄, h₅⟩ := hrun
  have hbefore : Sys.WorksWith foldHash ⟨db, Held.empty⟩ := by
    refine ⟨_, blank_migrated, LateDay.worked_leads (fun _ _ ha _ _ => ?_) hworked⟩
    exact ⟨LateDay.acts_whole ha, fun f heq => absurd heq ((acts_plain ha).2 f)⟩
  have hresults := (hbefore.step (hashing (by simp)) (.work (.results h₁))).step
    (hashing (by simp)) (.work (.begin h₂))
  have hsampled := (hresults.step (hashing (by simp)) (.work (.recordResponse h₃))).step
    (hashing (by simp)) (.work (.sampled h₄))
  refine hsampled.step ⟨fun _ heq => (by cases heq), fun f heq => ?_⟩ (.work (.proofs h₅))
  exact (WorkAction.proofs.inj (Action.work.inj heq)).symm

end UploadDay

open MemberProtocol in
/-- Both uploads are queued, and the proof opens the root of the results at the sampled nonce. -/
theorem uploads_kept_handed_in : UploadDay.handedIn.WorksWith foldHash ∧
    (∀ kind ∈ [IntentKind.results, .proofs], ∃ p intentId i,
      UploadDay.handedIn.db.work.benchmarkPayloads.lookup (CreditedDay.benchmarkId, kind) = some p ∧
      UploadDay.handedIn.db.work.protocolOutbox.lookup intentId = some i ∧
      UploadDay.handedIn.db.Carries CreditedDay.benchmarkId kind p i) ∧
    ∃ p result progress,
      UploadDay.handedIn.db.work.benchmarkPayloads.lookup (CreditedDay.benchmarkId, .proofs)
        = some p ∧
      p.payload = .obj [("merkle_proofs", .arr [UploadDay.proof])] ∧
      UploadDay.handedIn.db.work.benchmarkPayloads.lookup (CreditedDay.benchmarkId, .results)
        = some result ∧
      UploadDay.handedIn.db.work.benchmarkProgress.lookup CreditedDay.benchmarkId = some progress ∧
      progress.sampledNonces = .arr [.int 1] ∧
      ∃ count, IsProof foldHash count progress.sampledNonces result.payload p.payload := by
  obtain ⟨hkept, -, -, hproofs, -⟩ := uploads_kept UploadDay.works
  have hthere : (∀ kind ∈ [IntentKind.results, .proofs],
      (UploadDay.handedIn.db.work.benchmarkPayloads.lookup
        (CreditedDay.benchmarkId, kind)).isSome = true) ∧
      ((UploadDay.handedIn.db.work.benchmarkPayloads.lookup
        (CreditedDay.benchmarkId, IntentKind.proofs)).map (·.payload))
          = some (.obj [("merkle_proofs", .arr [UploadDay.proof])]) ∧
      ((UploadDay.handedIn.db.work.benchmarkProgress.lookup CreditedDay.benchmarkId).map
        (·.sampledNonces)) = some (.arr [.int 1]) := by decide +kernel
  obtain ⟨hthere, hpayload, hsampled⟩ := hthere
  refine ⟨UploadDay.works, fun kind hkind => ?_, ?_⟩
  · obtain ⟨p, hp⟩ := Option.isSome_iff_exists.mp (hthere kind hkind)
    obtain ⟨-, ⟨intentId, i, hi, hcarries, -⟩, -⟩ := hkept _ _ p hp
    exact ⟨p, intentId, i, hp, hi, hcarries⟩
  · obtain ⟨p, hp, hvalue⟩ := Option.map_eq_some_iff.mp hpayload
    obtain ⟨-, -, count, result, progress, -, -, -, hresult, hprogress, hproof⟩ := hproofs _ p hp
    refine ⟨p, result, progress, hp, hvalue, hresult, hprogress, ?_, count, hproof⟩
    rw [hprogress] at hsampled
    exact Option.some.inj hsampled

end TigPool
