/-
# `TigPool.Refinement.Submissions` — submissions and the money behind them

A submission moves its intent, which is no part of the funds, and sometimes its
reservation, which is.  `Pays` says what a theorem about it says of the funds.
-/
import TigPool.Refinement.Settlement

namespace TigPool

open Basis

variable {db db' : Db} {identity : Uuid}

namespace Db

/-- What an operation on submissions does to the funds. -/
structure Pays (L : Change → Prop) (db db' : Db) : Prop where
  path : Funds.Path L db.funds db'.funds
  reports : db'.reports = db.reports
  observation : db'.observation = db.observation
  clock : db'.clock = db.clock
  sends : db.work.Sends L db'.work
  caps : Basis.Extends Eq db.work.spendingCaps db'.work.spendingCaps

variable {L : Change → Prop} {db'' : Db}

theorem Moves.pays (h : db.Moves L db') : db.Pays L db' :=
  ⟨h.path, h.reports, h.observation, h.clock, h.sends, by rw [h.caps]; exact .refl fun _ => rfl⟩

theorem Pays.trans (h : db.Pays L db') (h' : db'.Pays L db'') : db.Pays L db'' :=
  ⟨h.path.trans h'.path, h'.reports.trans h.reports, h'.observation.trans h.observation,
    h'.clock.trans h.clock, h.sends.trans h'.sends, h.caps.trans h'.caps fun _ _ _ => Eq.trans⟩

theorem Pays.mono {L' : Change → Prop} (h : db.Pays L db') (hL : ∀ c, L c → L' c) :
    db.Pays L' db' :=
  { h with path := h.path.mono hL, sends := h.sends.mono hL }

/-- Only tables about work change, and neither the events of reservations nor the caps. -/
theorem Pays.of_work (work : Work)
    (h : work.reservationEvents = db.work.reservationEvents)
    (hcaps : work.spendingCaps = db.work.spendingCaps) :
    db.Pays L { db with work := work } :=
  ⟨.refl, rfl, rfl, rfl, .of_eq h, by rw [hcaps]; exact .refl fun _ => rfl⟩

theorem Pays.refl (db : Db) : db.Pays L db := Pays.of_work db.work rfl rfl

end Db

namespace WorkRequests

theorem enqueue_pays {reservationId : Uuid} {kind : IntentKind} {payload : Json} {L : Change → Prop}
    (h : enqueue db reservationId kind payload identity = .ok db') : db.Pays L db' := by
  unfold enqueue at h
  split at h
  next =>
    simp only [bind_eq_ok, require_eq_ok, exists_const, pure_eq_ok] at h
    obtain ⟨-, rfl⟩ := h
    exact .refl db
  next =>
    simp only [bind_eq_ok, require_eq_ok, exists_const, pure_eq_ok] at h
    obtain ⟨-, rfl⟩ := h
    exact .of_work _ rfl rfl

theorem enqueue_funds {reservationId identity : Uuid} {kind : IntentKind} {payload : Json}
    (h : enqueue db reservationId kind payload identity = .ok db') : db'.funds = db.funds := by
  unfold enqueue at h
  split at h <;> simp only [bind_eq_ok, require_eq_ok, exists_const, pure_eq_ok] at h <;>
    obtain ⟨-, rfl⟩ := h <;> rfl

/-- A reservation of the fresh identity, by some member, in this round. -/
def Reserves (fresh : Uuid) (round : ℕ) (c : Change) : Prop :=
  c.Quiet ∨ ∃ member, c = .reserved fresh member round

theorem attempt_pays (hf : db.funds.Lawful) {round : ℕ}
    {choose : WorkRequest → Result (Option Selection)} {around : Surroundings}
    {pilot : WorkRequest → Result Unit} {fresh : FreshIds} {requestId out : Uuid}
    (hround : ∀ request selection, choose request = .ok (some selection) →
      selection.creationRound = round)
    (h : attempt db choose around pilot fresh requestId = .ok (some (db', out))) :
    db.Pays (Reserves fresh.reservation round) db' := by
  obtain ⟨request, selection, -, -, hselection, htry⟩ := attempt_spec h
  obtain ⟨reserved, hreserve, hhand⟩ := tryReserve_spec htry
  simp only [handOver, bind_eq_ok, pure_eq_ok] at hhand
  obtain ⟨db₁, henqueue, rfl⟩ := hhand
  rw [hround request selection hselection] at hreserve
  have hmoves : db.Pays (Reserves fresh.reservation round) reserved :=
    (reserve_moves hf hreserve).pays.mono fun c hc =>
      hc.imp id fun hmem => ⟨request.memberId, by
        simpa using List.mem_singleton.mp hmem⟩
  exact (hmoves.trans (enqueue_pays henqueue)).trans (.of_work _ rfl rfl)

theorem reserveNext_pays (hf : db.funds.Lawful) {blockId : String}
    {choose : WorkRequest → Result (Option Selection)} {queue : List Uuid}
    {around : Surroundings} {pilot : WorkRequest → Result Unit} {fresh : FreshIds}
    {out : Option Uuid} (hchoose : Chooses db blockId choose)
    (h : reserveNext db blockId choose queue around pilot fresh = .ok (db', out)) :
    db.Pays Change.Quiet db' ∨ ∃ id block, newestBlock db = some (id, block) ∧
      db.Pays (Reserves fresh.reservation block.round) db' := by
  rcases reserveNext_spec h with ⟨rfl, -⟩ | ⟨block, hnewest, -, hqueue⟩
  · exact .inl (.refl _)
  · refine .inr ⟨blockId, block, hnewest, ?_⟩
    have hf₁ : (expireQueued db).funds.Lawful := hf
    have hexpired : db.Pays (Reserves fresh.reservation block.round) (expireQueued db) :=
      .of_work _ rfl rfl
    refine hexpired.trans ?_
    rcases tryQueue_spec hqueue with ⟨rfl, -⟩ | ⟨requestId, -, reservation, -, hattempt⟩
    · exact .refl _
    · have hround : ∀ request selection, choose request = .ok (some selection) →
          selection.creationRound = block.round := fun request selection hselection =>
        (hchoose request selection hselection).1 block (newestBlock_spec hnewest).1
      exact attempt_pays hf₁ hround hattempt

end WorkRequests

namespace Submissions

theorem locked_spec {row : Reservation} {intent : ProtocolIntent}
    (h : locked db identity = .ok (row, intent)) :
    db.work.protocolOutbox.lookup identity = some intent ∧
      db.funds.reservations.lookup intent.reservationId = some row := by
  simp only [locked, lockedReservation, bind_eq_ok, fetch_eq_ok, pure_eq_ok, Prod.mk.injEq] at h
  obtain ⟨i, hi, r, hr, rfl, rfl⟩ := h
  exact ⟨hi, hr⟩

/-- Work of one reservation goes on. -/
def Progresses (c : Change) : Prop :=
  c.Quiet ∨ ∃ id, c = .progressed id

/-- What authorising a POST found and did. -/
theorem begin_spec {preflight : Option Preflight} {around : Surroundings} {out : ProtocolIntent}
    (h : Submissions.begin db identity preflight around = .ok (db', out)) :
    ∃ row intent, locked db identity = .ok (row, intent) ∧ intent.state = .ready ∧
      ((intent.kind = .precommit ∧ ∃ found u db₁ payload, preflight = some found ∧
          checkPreflight db row intent found = .ok u ∧
          markSubmitting db intent.reservationId around = .ok (db₁, payload) ∧
          db' = db₁.putIntent identity { intent with
            state := .uncertain, sentAt := some db₁.clock, preflight := some found,
            matchKey := some (matchKey intent.payloadText) }) ∨
        (intent.kind ≠ .precommit ∧ row.state = .accepted ∧ row.handedOverAt.isSome ∧
          (intent.kind = .results ∨ db.work.protocolOutbox.any (fun _ i =>
            i.reservationId = intent.reservationId ∧ i.kind = .results ∧ i.state = .accepted)
              = true) ∧
          db' = db.putIntent identity
            { intent with state := .uncertain, sentAt := some db.clock })) := by
  simp only [Submissions.begin, bind_eq_ok, require_eq_ok, exists_const] at h
  obtain ⟨⟨row, intent⟩, hlocked, hready, h⟩ := h
  refine ⟨row, intent, hlocked, hready, ?_⟩
  split at h
  next hkind =>
    simp only [bind_eq_ok, require_eq_ok, exists_const, fetch_eq_ok, pure_eq_ok, Prod.mk.injEq] at h
    obtain ⟨-, found, hfound, u, hcheck, -, ⟨db₁, payload⟩, hmark, rfl, -⟩ := h
    exact .inl ⟨hkind, found, u, db₁, payload, hfound, hcheck, hmark, rfl⟩
  next hkind =>
    simp only [bind_eq_ok, require_eq_ok, exists_const, pure_eq_ok, Prod.mk.injEq] at h
    obtain ⟨⟨hstate, hhanded⟩, hresults, rfl, -⟩ := h
    exact .inr ⟨hkind, hstate, hhanded, hresults, rfl⟩

theorem begin_pays {preflight : Option Preflight} {around : Surroundings} {out : ProtocolIntent}
    (h : Submissions.begin db identity preflight around = .ok (db', out)) :
    db.Pays Progresses db' := by
  obtain ⟨row, intent, -, -, ⟨-, found, u, db₁, payload, -, -, hmark, rfl⟩ | ⟨-, -, -, -, rfl⟩⟩ :=
    begin_spec h
  · refine .trans ((markSubmitting_moves hmark).pays.mono fun c hc => hc.imp id fun hmem => ?_)
      (.of_work _ rfl rfl)
    exact ⟨intent.reservationId, List.mem_singleton.mp hmem⟩
  · exact .of_work _ rfl rfl

theorem cancelUnsent_pays (hf : db.funds.Lawful) {evidence : Json}
    (h : cancelUnsent db identity evidence = .ok db') :
    ∃ row intent, locked db identity = .ok (row, intent) ∧
      db.Pays (Only [.unstarted intent.reservationId row.memberId]) db' := by
  simp only [cancelUnsent, bind_eq_ok, require_eq_ok, exists_const] at h
  obtain ⟨-, ⟨row, intent⟩, hlocked, h⟩ := h
  refine ⟨row, intent, hlocked, ?_⟩
  split at h
  next =>
    obtain rfl := Except.ok.inj h
    exact .refl _
  next =>
    simp only [bind_eq_ok, require_eq_ok, exists_const, pure_eq_ok] at h
    obtain ⟨-, ⟨db₁, out⟩, hrelease, rfl⟩ := h
    obtain ⟨m, hmoves, howner⟩ := releaseUnstarted_moves hf hrelease
    obtain rfl := howner _ (locked_spec hlocked).2
    exact hmoves.pays.trans (.of_work _ rfl rfl)

theorem receipt_pays {reservationId : Uuid} {benchmarkId : String} {evidence : Json}
    {L : Change → Prop} (h : receipt db reservationId benchmarkId evidence = .ok db') :
    db.Pays L db' := by
  simp only [receipt, bind_eq_ok, require_eq_ok, exists_const] at h
  obtain ⟨-, h⟩ := h
  split at h
  next =>
    simp only [bind_eq_ok, require_eq_ok, exists_const, pure_eq_ok] at h
    obtain ⟨-, rfl⟩ := h
    exact .refl db
  next =>
    simp only [bind_eq_ok, require_eq_ok, exists_const, pure_eq_ok] at h
    obtain ⟨-, -, rfl⟩ := h
    exact .of_work _ rfl rfl

/-- An answer that names a benchmark names a TIG identity, and answers a precommit. -/
theorem readAnswer_precommit {kind : IntentKind} {response : Wire} {benchmarkId : String}
    (h : readAnswer kind response = .precommit benchmarkId) :
    kind = .precommit ∧ isIdentity benchmarkId = true := by
  unfold readAnswer at h
  split at h
  next =>
    dsimp only at h
    split at h
    next =>
      cases kind with
      | precommit =>
          simp only at h
          split at h
          next value hid =>
            cases h
            unfold identityIn at hid
            split at hid
            next => exact ⟨rfl, (Option.filter_eq_some_iff.mp hid).2⟩
            next => cases hid
          next => cases h
      | results => simp only at h; split at h <;> cases h
      | proofs => simp only at h; split at h <;> cases h
    next => cases h
  next => cases h

theorem readAnswer_payload {kind : IntentKind} {response : Wire}
    (h : readAnswer kind response = .payload) : kind ≠ .precommit := by
  rintro rfl
  unfold readAnswer at h
  split at h
  next =>
    dsimp only at h
    split at h
    next => split at h <;> cases h
    next => cases h
  next => cases h

/-- The response is on record, whatever it says. -/
def saveResponse (db : Db) (identity : Uuid) (response : Json) (responseId : Uuid) : Db :=
  { db with work := { db.work with
      submissionResponses :=
        AList.insert responseId ⟨identity, response, db.clock⟩ db.work.submissionResponses } }

/-- A response is saved, a positive one makes the receipt, and an uncertain intent that is
answered is accepted. -/
theorem recordResponse_spec {response : Wire} {responseId : Uuid} {limits : Wire → Bool}
    {out : Bool} (h : recordResponse db identity response responseId limits = .ok (db', out)) :
    ∃ row intent stored db₁, locked db identity = .ok (row, intent) ∧
      (intent.state = .uncertain ∨ intent.state = .accepted) ∧
      response.column limits = some stored ∧
      ((∃ benchmarkId, readAnswer intent.kind response = .precommit benchmarkId ∧
          receipt (saveResponse db identity stored responseId) intent.reservationId benchmarkId
            (.obj [("response_id", .str responseId)]) = .ok db₁) ∨
        ((∀ benchmarkId, readAnswer intent.kind response ≠ .precommit benchmarkId) ∧
          db₁ = saveResponse db identity stored responseId)) ∧
      ((intent.state = .uncertain → readAnswer intent.kind response = .unknown) ∧ db' = db₁ ∨
        intent.state = .uncertain ∧ readAnswer intent.kind response ≠ .unknown ∧
          db' = db₁.putIntent identity { intent with
            state := .accepted, evidence := some (.obj [("response_id", .str responseId)]) }) := by
  simp only [recordResponse, bind_eq_ok, require_eq_ok, exists_const, fetch_eq_ok] at h
  obtain ⟨-, ⟨row, intent⟩, hlocked, hstate, stored, hstored, -, h⟩ := h
  refine ⟨row, intent, stored, ?_⟩
  cases hanswer : readAnswer intent.kind response with
  | precommit benchmarkId =>
      simp only [hanswer, bind_eq_ok] at h
      obtain ⟨db₁, hreceipt, h⟩ := h
      refine ⟨db₁, hlocked, hstate, hstored, .inl ⟨benchmarkId, rfl, hreceipt⟩, ?_⟩
      split at h
      next hcond => exact .inr ⟨hcond.2, by simp, (Prod.mk.inj (Except.ok.inj h)).1.symm⟩
      next hcond =>
        exact .inl ⟨fun hs => absurd ⟨by simp, hs⟩ hcond, (Prod.mk.inj (Except.ok.inj h)).1.symm⟩
  | payload =>
      simp only [hanswer, bind_eq_ok] at h
      obtain ⟨db₁, hsave, h⟩ := h
      refine ⟨db₁, hlocked, hstate, hstored, .inr ⟨by simp, (Except.ok.inj hsave).symm⟩, ?_⟩
      split at h
      next hcond => exact .inr ⟨hcond.2, by simp, (Prod.mk.inj (Except.ok.inj h)).1.symm⟩
      next hcond =>
        exact .inl ⟨fun hs => absurd ⟨by simp, hs⟩ hcond, (Prod.mk.inj (Except.ok.inj h)).1.symm⟩
  | unknown =>
      simp only [hanswer, bind_eq_ok] at h
      obtain ⟨db₁, hsave, h⟩ := h
      refine ⟨db₁, hlocked, hstate, hstored, .inr ⟨by simp, (Except.ok.inj hsave).symm⟩, ?_⟩
      split at h
      next hcond => exact absurd rfl hcond.1
      next => exact .inl ⟨fun _ => rfl, (Prod.mk.inj (Except.ok.inj h)).1.symm⟩

theorem recordResponse_pays {response : Wire} {responseId : Uuid} {limits : Wire → Bool}
    {out : Bool} {L : Change → Prop}
    (h : recordResponse db identity response responseId limits = .ok (db', out)) :
    db.Pays L db' := by
  obtain ⟨row, intent, stored, db₁, -, -, -, hreceipt, hput⟩ := recordResponse_spec h
  have hsaved : db.Pays L db₁ := by
    rcases hreceipt with ⟨benchmarkId, -, hreceipt⟩ | ⟨-, rfl⟩
    · refine .trans ?_ (receipt_pays hreceipt)
      exact .of_work _ rfl rfl
    · exact .of_work _ rfl rfl
  rcases hput with ⟨-, rfl⟩ | ⟨-, -, rfl⟩
  · exact hsaved
  · exact hsaved.trans (.of_work _ rfl rfl)

theorem definitiveRejection_pays (hf : db.funds.Lawful) {evidence : Json} {actualFee : ℤ}
    (h : definitiveRejection db identity evidence actualFee = .ok db') :
    ∃ row intent, locked db identity = .ok (row, intent) ∧
      db.Pays (Only [.unstarted intent.reservationId row.memberId]) db' := by
  simp only [definitiveRejection, bind_eq_ok, require_eq_ok, exists_const, pure_eq_ok] at h
  obtain ⟨-, ⟨row, intent⟩, hlocked, -, -, ⟨db₁, out⟩, hrelease, rfl⟩ := h
  refine ⟨row, intent, hlocked, ?_⟩
  obtain ⟨m, hmoves, howner⟩ := releaseUnstarted_moves hf hrelease
  obtain rfl := howner _ (locked_spec hlocked).2
  exact hmoves.pays.trans (.of_work _ rfl rfl)

/-- Where all of a list count as one, they count as the first. -/
theorem eraseDupsBy_singleton {α : Type} {same : α → α → Bool} {items : List α} {first : α}
    (h : items.eraseDupsBy same = [first]) :
    first ∈ items ∧ ∀ item ∈ items, item = first ∨ same item first = true := by
  cases items with
  | nil => cases h
  | cons head rest =>
      rw [List.eraseDupsBy_cons, List.cons.injEq] at h
      obtain ⟨rfl, hrest⟩ := h
      have hnone : rest.filter (fun item => same item head = false) = [] := by
        cases hleft : rest.filter (fun item => same item head = false) with
        | nil => rfl
        | cons other left =>
            rw [hleft, List.eraseDupsBy_cons] at hrest
            cases hrest
      refine ⟨List.mem_cons_self .., fun item hitem => ?_⟩
      rcases List.mem_cons.mp hitem with heq | hitem
      · exact .inl heq
      · exact .inr (by simpa using List.filter_eq_nil_iff.mp hnone item hitem)

/-- A benchmark that is recovered is new, matches the payload, and is alone in that. -/
theorem recoverPrecommit_spec {precommits : List Json} {evidence : Json} {out : Option String}
    (h : recoverPrecommit db identity precommits evidence = .ok (db', out)) :
    ∃ row intent preflight, locked db identity = .ok (row, intent) ∧ intent.kind = .precommit ∧
      intent.state = .uncertain ∧ intent.preflight = some preflight ∧
      ((out = none ∧ db' = db) ∨ ∃ benchmarkId db₁, out = some benchmarkId ∧
        (∃ value ∈ precommits, value.get? "benchmark_id" = some (.str benchmarkId) ∧
          recoverable db preflight intent.payloadText value = true) ∧
        (∀ value ∈ precommits, recoverable db preflight intent.payloadText value = true →
          value.get? "benchmark_id" = some (.str benchmarkId)) ∧
        receipt db intent.reservationId benchmarkId evidence = .ok db₁ ∧
        db' = db₁.putIntent identity
          { intent with state := .accepted, evidence := some evidence }) := by
  simp only [recoverPrecommit, bind_eq_ok, require_eq_ok, exists_const, fetch_eq_ok] at h
  obtain ⟨-, ⟨row, intent⟩, hlocked, ⟨hkind, hstate⟩, preflight, hpreflight, -, hnamed, h⟩ := h
  refine ⟨row, intent, preflight, hlocked, hkind, hstate, hpreflight, ?_⟩
  split at h
  next candidate hfound =>
    simp only [bind_eq_ok, pure_eq_ok, Prod.mk.injEq] at h
    obtain ⟨benchmarkId, hcandidate, db₁, hreceipt, rfl, rfl⟩ := h
    obtain rfl : candidate = .str benchmarkId := by
      cases candidate with
      | str value => rw [Except.ok.inj hcandidate]
      | _ => cases hcandidate
    obtain ⟨hfirst, hone⟩ := eraseDupsBy_singleton hfound
    have hall : ∀ value ∈ precommits, recoverable db preflight intent.payloadText value = true →
        value.get? "benchmark_id" = some (.str benchmarkId) := by
      intro value hvalue hrecoverable
      have hmem := List.mem_filter.mpr ⟨hvalue, hrecoverable⟩
      obtain ⟨id, hid⟩ := Option.isSome_iff_exists.mp (hnamed value hmem)
      rcases hone id (List.mem_filterMap.mpr ⟨value, hmem, hid⟩) with heq | heq
      · rw [hid, heq]
      · rw [hid, Json.equals_str.mp heq]
    obtain ⟨value, hmem, hid⟩ := List.mem_filterMap.mp hfirst
    obtain ⟨hvalue, hrecoverable⟩ := List.mem_filter.mp hmem
    exact .inr ⟨benchmarkId, db₁, rfl, ⟨value, hvalue, hid, hrecoverable⟩, hall, hreceipt, rfl⟩
  next =>
    obtain ⟨rfl, rfl⟩ := Prod.mk.inj (Except.ok.inj h)
    exact .inl ⟨rfl, rfl⟩

theorem recoverPrecommit_pays {precommits : List Json} {evidence : Json} {out : Option String}
    {L : Change → Prop}
    (h : recoverPrecommit db identity precommits evidence = .ok (db', out)) : db.Pays L db' := by
  obtain ⟨row, intent, preflight, -, -, -, -, ⟨-, rfl⟩ | ⟨_, db₁, -, -, -, hreceipt, rfl⟩⟩ :=
    recoverPrecommit_spec h
  · exact .refl _
  · exact (receipt_pays hreceipt).trans (.of_work _ rfl rfl)

theorem publishAssignment_moves (hf : db.funds.Lawful) {reservationId out : Uuid}
    {precommit evidence : Json} {snapshot : Snapshot} {artifactOrigin : String}
    (h : publishAssignment db reservationId precommit snapshot evidence artifactOrigin
      = .ok (db', out)) : db.Moves (Only [.accepted reservationId]) db' := by
  simp only [publishAssignment, bind_eq_ok, require_eq_ok, exists_const, fetch_eq_ok] at h
  obtain ⟨row, -, payload, -, ⟨benchmarkId, fee⟩, -, receipt, -, -, archive, -, haccept⟩ := h
  exact accept_moves hf haccept

theorem confirmPayload_pays {reservationId : Uuid} {kind : IntentKind} {evidence : Json}
    {L : Change → Prop} (h : confirmPayload db reservationId kind evidence = .ok db') :
    db.Pays L db' := by
  simp only [confirmPayload, bind_eq_ok, require_eq_ok, exists_const, fetch_eq_ok] at h
  obtain ⟨-, row, -, ⟨intentId, intent⟩, -, -, h⟩ := h
  split at h
  next =>
    obtain rfl := Except.ok.inj h
    exact .of_work _ rfl rfl
  next =>
    obtain rfl := Except.ok.inj h
    exact .refl _

theorem retireUnsentPayload_pays {out : Bool} {L : Change → Prop}
    (h : retireUnsentPayload db identity = .ok (db', out)) : db.Pays L db' := by
  simp only [retireUnsentPayload, bind_eq_ok] at h
  obtain ⟨⟨row, intent⟩, -, h⟩ := h
  split at h
  next =>
    obtain ⟨rfl, -⟩ := Prod.mk.inj (Except.ok.inj h)
    exact .refl _
  next =>
    obtain ⟨rfl, -⟩ := Prod.mk.inj (Except.ok.inj h)
    exact .of_work _ rfl rfl

theorem recordBinary_pays {reservationId : Uuid} {sourceUrl digest : String} {L : Change → Prop}
    (h : recordBinary db reservationId sourceUrl digest = .ok db') : db.Pays L db' := by
  simp only [recordBinary, bind_eq_ok, require_eq_ok, exists_const] at h
  obtain ⟨row, -, -, h⟩ := h
  split at h
  next =>
    simp only [bind_eq_ok, require_eq_ok, exists_const, pure_eq_ok] at h
    obtain ⟨-, rfl⟩ := h
    exact .refl _
  next =>
    simp only [bind_eq_ok, require_eq_ok, exists_const, pure_eq_ok] at h
    obtain ⟨-, rfl⟩ := h
    exact .of_work _ rfl rfl

end Submissions

/-! ## Uploads and outcomes -/

namespace MemberProtocol

theorem store_pays {row : Reservation} {benchmarkId : String} {kind : IntentKind} {payload : Json}
    {intent : Uuid} {L : Change → Prop}
    (h : store db identity row benchmarkId kind payload intent = .ok db') : db.Pays L db' := by
  simp only [store, bind_eq_ok, require_eq_ok, exists_const] at h
  obtain ⟨-, h⟩ := h
  split at h
  next =>
    simp only [bind_eq_ok, require_eq_ok, exists_const, pure_eq_ok] at h
    obtain ⟨-, rfl⟩ := h
    exact .refl _
  next =>
    simp only [bind_eq_ok, require_eq_ok, exists_const] at h
    refine .trans ?_ (WorkRequests.enqueue_pays h.2)
    exact .of_work _ rfl rfl

theorem results_pays {benchmarkId : String} {memberId : Uuid} {merkleRoot : String}
    {qualities : List ℤ} {intent : Uuid} {L : Change → Prop}
    (h : results db benchmarkId memberId merkleRoot qualities intent = .ok db') : db.Pays L db' := by
  simp only [results, bind_eq_ok, require_eq_ok, exists_const] at h
  obtain ⟨-, -, ⟨identity, row⟩, -, -, hstore⟩ := h
  exact store_pays hstore

theorem sampled_pays {benchmarkId : String} {nonces : List ℕ} {evidence : Json} {L : Change → Prop}
    (h : sampled db benchmarkId nonces evidence = .ok db') : db.Pays L db' := by
  simp only [sampled, bind_eq_ok, require_eq_ok, exists_const] at h
  obtain ⟨-, ⟨identity, row⟩, -, -, h⟩ := h
  split at h
  next =>
    simp only [bind_eq_ok, require_eq_ok, exists_const, pure_eq_ok] at h
    obtain ⟨-, rfl⟩ := h
    exact .refl _
  next =>
    obtain rfl := Except.ok.inj h
    exact .of_work _ rfl rfl

theorem proofs_pays {blake3 : Blake3} {benchmarkId : String} {memberId : Uuid}
    {values : List Json} {intent : Uuid} {L : Change → Prop}
    (h : proofs blake3 db benchmarkId memberId values intent = .ok db') : db.Pays L db' := by
  simp only [proofs, bind_eq_ok, require_eq_ok, exists_const] at h
  obtain ⟨⟨identity, row⟩, -, progress, -, result, -, count, -, nonces, -, -, hstore⟩ := h
  exact store_pays hstore

end MemberProtocol

namespace Reconciliation

theorem putIntents_pays {intents : List (Uuid × ProtocolIntent)} {evidence : Json}
    {L : Change → Prop} : db.Pays L (intents.foldl (fun db i =>
      db.putIntent i.1 { i.2 with state := .cancelled, evidence := some evidence }) db) := by
  induction intents generalizing db with
  | nil => exact .refl db
  | cons i intents ih =>
      refine .trans ?_ ih
      exact .of_work _ rfl rfl

/-- Only the outbox is written. -/
theorem putIntents_frame {intents : List (Uuid × ProtocolIntent)} {evidence : Json} :
    ∃ outbox, intents.foldl (fun db i =>
        db.putIntent i.1 { i.2 with state := .cancelled, evidence := some evidence }) db
      = { db with work := { db.work with protocolOutbox := outbox } } := by
  induction intents generalizing db with
  | nil => exact ⟨_, rfl⟩
  | cons i intents ih =>
      obtain ⟨outbox, heq⟩ := @ih (db.putIntent i.1
        { i.2 with state := .cancelled, evidence := some evidence })
      exact ⟨outbox, heq⟩

theorem expireUnsentResults_pays {reservationId : Uuid} {height : ℤ} {lifetime : Json} {out : Bool}
    (h : expireUnsentResults db reservationId height lifetime = .ok (db', out)) :
    db.Pays (Only [.progressed reservationId]) db' := by
  simp only [expireUnsentResults, bind_eq_ok] at h
  obtain ⟨row, -, h⟩ := h
  split at h
  next =>
    obtain ⟨rfl, -⟩ := Prod.mk.inj (Except.ok.inj h)
    exact .refl _
  next =>
    simp only [bind_eq_ok, pure_eq_ok, Prod.mk.injEq] at h
    obtain ⟨⟨db₁, id⟩, houtcome, rfl, -⟩ := h
    exact (recordOutcome_moves houtcome).pays.trans putIntents_pays

theorem expireRejectedResults_pays {reservationId : Uuid} {height : ℤ} {lifetime : Json}
    {receipt : Uuid × Json} {origin : String} {out : Bool}
    (h : expireRejectedResults db reservationId height lifetime receipt origin = .ok (db', out)) :
    db.Pays (Only [.progressed reservationId]) db' := by
  simp only [expireRejectedResults, bind_eq_ok] at h
  obtain ⟨row, -, h⟩ := h
  split at h
  next =>
    obtain ⟨rfl, -⟩ := Prod.mk.inj (Except.ok.inj h)
    exact .refl _
  next intentId intent hintent =>
    split at h
    next =>
      obtain ⟨rfl, -⟩ := Prod.mk.inj (Except.ok.inj h)
      exact .refl _
    next =>
      simp only [bind_eq_ok, pure_eq_ok, Prod.mk.injEq] at h
      obtain ⟨⟨db₁, id⟩, houtcome, rfl, -⟩ := h
      exact (recordOutcome_moves houtcome).pays.trans (.of_work _ rfl rfl)

end Reconciliation

end TigPool
